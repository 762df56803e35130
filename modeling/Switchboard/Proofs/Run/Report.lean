import Switchboard.Proofs.Run.Embedding
import Switchboard.Proofs.Run.Stop
/-!
# The report of a run

When the last phase was announced nothing waits, nothing can be sent, and no traffic comes to the
tester any more. The runner waits until what was queued before has run, and reports then: every
command was answered or cancelled.
-/
namespace Switchboard

/-- The report of a run in which every command was ended. -/
structure RunReport.Balances (r : RunReport) : Prop where
  env : r.env.counters.cmdsSent =
    r.env.counters.results + r.env.counters.failed + r.env.counters.cancelled
  table : r.table.registered = r.table.completed + r.table.failed + r.table.cancelled
  finalPhase : r.finalPhase = .deinited

namespace App

/-- How many tasks of the tester's worker the runner waits for, when it has heard of the last
phase. -/
def Runner.awaited : Runner → Option Nat
  | draining .tester left => some left
  | draining .engine _ | aborted | shutting _ | returned => some 0
  | idle | installed | starting | listening _ | finished => none

theorem Runner.heard_of_awaited {r : Runner} {n : Nat} (h : r.awaited = some n) : r.heard = 4 := by
  cases r with
  | idle | installed | starting | finished => cases h
  | listening seen => cases h
  | draining side left => rfl
  | aborted | returned => rfl
  | shutting side => rfl

/-- Whoever waits for the tester's worker waits for one task less when it has taken one. -/
theorem Runner.awaited_countDown {r : Runner} {side : Side} {n : Nat}
    (h : (r.countDown side).awaited = some n) :
    ∃ k, r.awaited = some k ∧ k ≤ if side = .tester then n + 1 else n := by
  rcases r.countDown_cases side with hsame | ⟨left, rfl, hless⟩
  · refine ⟨n, hsame ▸ h, ?_⟩
    split
    · exact Nat.le_succ n
    · exact Nat.le_refl n
  · rw [hless] at h
    cases side with
    | engine => exact ⟨0, rfl, Nat.zero_le _⟩
    | tester =>
      cases h
      exact ⟨n + 1, rfl, Nat.le_refl _⟩

namespace Scene

/-- Behind the tasks that the runner waits for no traffic is queued. -/
def Drains (s : Scene) : Prop :=
  ∀ n, s.runner.awaited = some n →
    ∀ task ∈ (s.app.worker .tester).queue.drop n, occasionOf task ≠ some .traffic

section Drains

variable {owners : List Side} {s s' : Scene}

/-- Nothing waits when the runner has heard of the last phase. -/
theorem Ordered.hushed_of_awaited (h : s.Ordered owners) {n : Nat}
    (hawaited : s.runner.awaited = some n) : s.app.Hushed := by
  have hheard := h.inPhase.heard
  rw [Runner.heard_of_awaited hawaited] at hheard
  exact h.inPhase.paced.hushed (Nat.le_trans (by decide) hheard)

/-- The queue grows, and nothing else is waited for. -/
theorem Ordered.drains_extends (h : s.Ordered owners) (hdrains : s.Drains)
    (hawaited : s'.runner.awaited = s.runner.awaited)
    (hqueue : Extends (¬ s.app.Hushed) (s.app.worker .tester).queue
      (s'.app.worker .tester).queue) : s'.Drains := by
  intro n hn task htask
  rw [hawaited] at hn
  obtain ⟨more, heq, hmore⟩ := hqueue
  rw [heq, List.drop_append] at htask
  rcases List.mem_append.mp htask with htask | htask
  · exact hdrains n hn task htask
  · intro htraffic
    exact (hmore task (List.mem_of_mem_drop htask) _ htraffic).2 (h.hushed_of_awaited hn)

/-- Nothing happens to the queue, and nothing else is waited for. -/
theorem Drains.still (hdrains : s.Drains) (hawaited : s'.runner.awaited = s.runner.awaited)
    (hqueue : (s'.app.worker .tester).queue = (s.app.worker .tester).queue) : s'.Drains := by
  intro n hn
  rw [hqueue]
  exact hdrains n (hawaited ▸ hn)

/-- A worker begins with a task, for which the runner may have waited. -/
theorem Drains.take (hdrains : s.Drains) {side : Side} (hact : s.take side = some s') :
    s'.Drains := by
  obtain ⟨hunshaken, hrunner⟩ := unshaken_take hact
  intro n hn other hother
  rw [hrunner] at hn
  rw [hunshaken.queue, queue_popped] at hother
  obtain ⟨k, hk, hle⟩ := Runner.awaited_countDown hn
  refine hdrains k hk other ?_
  cases side with
  | engine => exact List.drop_subset_drop_left _ hle hother
  | tester =>
    rw [if_pos rfl, List.drop_tail] at hother
    exact List.drop_subset_drop_left _ hle hother

/-- The runner goes on. -/
theorem Ordered.drains_proceed (h : s.Ordered owners) (hdrains : s.Drains)
    (hproceed : s.proceed = some s') : s'.Drains := by
  have hnone (hnone : s'.runner.awaited = none) : s'.Drains := by
    intro n hn
    rw [hnone] at hn
    cases hn
  cases goesOn_of_proceed hproceed with
  | start | launch => exact hnone rfl
  | answer =>
    refine hnone ?_
    change Runner.awaited (if _ then _ else _) = none
    split
    · rfl
    · rfl
  | flushTester =>
    intro n hn task htask
    cases hn
    change task ∈ ((s.flush .tester).app.worker .tester).queue.drop
      ((s.flush .tester).app.worker .tester).queue.length at htask
    rw [List.drop_length] at htask
    cases htask
  | abort hrunner =>
    obtain ⟨hgrows, -⟩ := behaves_abort "tester dropped" s.app h.accounted.placed
    refine h.drains_extends hdrains ?_ (hgrows.queue .tester)
    rw [hrunner]
    rfl
  | flushEngine hrunner | shutTester hrunner | shutEngine hrunner | leave hrunner =>
    refine hdrains.still ?_ rfl
    rw [hrunner]
    rfl

/-- Whatever act is performed. -/
theorem Ordered.drains_perform (h : s.Ordered owners) (hdrains : s.Drains) {act : Act}
    (hact : s.perform act = some s') : s'.Drains := by
  cases act with
  | operate op =>
    cases hact
    have hproceeds := op.proceeds h.accounted.placed h.inPhase.paced
    exact h.drains_extends hdrains rfl (hproceeds.queue .tester)
  | note notes =>
    cases hact
    exact hdrains.still rfl rfl
  | take side => exact hdrains.take hact
  | finish side ended =>
    obtain ⟨hunshaken, hrunner⟩ := unshaken_finish hact
    exact hdrains.still (congrArg Runner.awaited hrunner) (hunshaken.queue .tester)
  | call tester =>
    obtain ⟨-, rfl⟩ := call_eq_some hact
    exact fun n hn => nomatch hn
  | proceed => exact h.drains_proceed hdrains hact

/-- However acts follow each other. -/
theorem Ordered.drains_run (h : s.Ordered owners) (hdrains : s.Drains) {acts : List Act}
    (hrun : s.run acts = some s') : s'.Drains := by
  induction acts generalizing s owners with
  | nil =>
    cases hrun
    exact hdrains
  | cons act acts ih =>
    obtain ⟨next, hact, hrest⟩ := Option.bind_eq_some_iff.mp hrun
    obtain ⟨owners', hnext⟩ := h.perform hact
    exact ih hnext (h.drains_perform hdrains hact) hrest

end Drains

section Reports

variable {owners owners' : List Side} {flags : List Bool} {s s' : Scene}

/-- When nothing is left to do but to drop the application after a run, every command was ended. -/
theorem Ordered.balances (h : s.Ordered owners) (hdrains : s.Drains)
    (htallied : s.Tallied owners' flags) (hrunner : s.runner = .draining .engine 0) :
    ((Program.report.run s.app).1).Balances := by
  have hawaited : s.runner.awaited = some 0 := by rw [hrunner]; rfl
  obtain ⟨-, -, hentries⟩ := h.hushed_of_awaited hawaited
  constructor
  · have hbalance := htallied.balance
    have hwaiting : s.app.waitingOf .tester = 0 := by rw [waitingOf, hentries]; rfl
    have hqueued : s.app.endingsQueued .tester = 0 := by
      apply List.countP_eq_zero.mpr
      intro task htask hended
      obtain ⟨i, heq⟩ := Option.isSome_iff_exists.mp hended
      obtain ⟨outcome, rfl⟩ := eq_of_endedBy heq
      exact hdrains 0 hawaited _ htask rfl
    rw [hwaiting, hqueued] at hbalance
    exact hbalance
  · obtain ⟨log, hbalanced⟩ := htallied.flagged.balanced
    have hsize : s.app.router.table.size = 0 := congrArg List.length hentries
    have hsum := hbalanced.sum
    rw [hsize] at hsum
    exact hsum
  · have hheard := h.inPhase.heard
    rw [hrunner] at hheard
    change 4 ≤ s.app.lifecycle.phase.rank at hheard
    change s.app.lifecycle.phase = .deinited
    cases hphase : s.app.lifecycle.phase with
    | created | started | stopping | stopped =>
      rw [hphase] at hheard
      exact absurd hheard (by decide)
    | deinited => rfl

/-- Whoever goes on has begun. -/
theorem runner_proceed (h : s.proceed = some s') : s'.runner ≠ .idle := by
  cases goesOn_of_proceed h with
  | answer =>
    change (if _ then _ else _) ≠ Runner.idle
    split
    · rintro ⟨⟩
    · rintro ⟨⟩
  | start | launch | flushTester | flushEngine | abort | shutTester | shutEngine | leave =>
    rintro ⟨⟩

theorem runner_countDown {r : Runner} {side : Side} (h : r.countDown side = .idle) : r = .idle := by
  rcases r.countDown_cases side with hsame | ⟨left, rfl, hless⟩
  · exact hsame.symm.trans h
  · cases hless.symm.trans h

/-- As long as nobody has begun to run an application, nobody drops it. -/
theorem Ordered.idle_perform (h : s.Ordered owners) {act : Act} (hact : s.perform act = some s')
    (hidle : s'.runner = .idle) : s.runner = .idle ∧ s'.app.dropped = s.app.dropped := by
  cases act with
  | operate op =>
    cases hact
    exact ⟨hidle, (op.keeps s.app 0 h.accounted.sound).2.persists.dropped⟩
  | note notes =>
    cases hact
    exact ⟨hidle, rfl⟩
  | take side =>
    obtain ⟨hunshaken, hrunner⟩ := unshaken_take hact
    refine ⟨runner_countDown (hrunner.symm.trans hidle), ?_⟩
    exact hunshaken.dropped.trans (dropped_setWorker s.app side _)
  | finish side ended =>
    obtain ⟨hunshaken, hrunner⟩ := unshaken_finish hact
    exact ⟨hrunner.symm.trans hidle, hunshaken.dropped⟩
  | call tester =>
    obtain ⟨-, rfl⟩ := call_eq_some hact
    cases hidle
  | proceed => exact absurd hidle (runner_proceed hact)

theorem Ordered.idle_run (h : s.Ordered owners) {acts : List Act} (hrun : s.run acts = some s')
    (hidle : s'.runner = .idle) : s.runner = .idle ∧ s'.app.dropped = s.app.dropped := by
  induction acts generalizing s owners with
  | nil =>
    cases hrun
    exact ⟨hidle, rfl⟩
  | cons act acts ih =>
    obtain ⟨next, hact, hrest⟩ := Option.bind_eq_some_iff.mp hrun
    obtain ⟨owners', hnext⟩ := h.perform hact
    obtain ⟨hbefore, hsame⟩ := ih hnext hrest
    obtain ⟨hfirst, hkept⟩ := h.idle_perform hact hbefore
    exact ⟨hfirst, hsame.trans hkept⟩

end Reports

section Runs

variable {config : Config} {name : Option String} {properties : String} {extension : Extension}
  {built : App}

/-- A new application has sent and observed nothing. -/
theorem tallied_ofApp (hbuilt : build config name properties extension = .ok built) :
    (ofApp built).Tallied [] [] := by
  have hlasting := lasting_ofApp hbuilt
  obtain ⟨name, properties, rfl⟩ := eq_ofParts_of_build hbuilt
  refine ⟨hlasting, ⟨⟨[], PendingTable.balanced_ofShards _⟩, rfl, ?_, ?_⟩, rfl, rfl, rfl, nofun,
    nofun⟩
  · intro e he
    simp [ofApp, ofParts, PendingTable.ofShards, PendingTable.entries] at he
  · intro side i outcome hmem
    cases side with
    | tester => cases hmem
    | engine => cases List.mem_singleton.mp hmem

/-- Whatever has happened to an application that was built, the tester's counters balance. The
commands that it has sent were answered or cancelled, or they wait, or their endings are queued for
it. Results that are not final are counted as often as handlers of streaming commands were called
with them. A send that fails changes nothing of all this. So when the runner has nothing left to do
but to drop the application, and whenever a program runs a tester to the end, the report says that
every command was ended. -/
theorem counters_balance (hbuilt : build config name properties extension = .ok built) :
    (∀ deeds s, (ofApp built).tally deeds = some s →
      s.app.counters.cmdsSent =
        s.app.counters.results + s.app.counters.failed + s.app.counters.cancelled +
          s.app.waitingOf .tester + s.app.endingsQueued .tester ∧
      s.app.counters.intermediate =
        s.log.countP (Entry.streams (deeds.flatMap Deed.flags)) ∧
      (∀ handler cmd streaming, Spares s.app (Program.sendCmd handler cmd streaming)) ∧
      (∀ side msg completion, Spares s.app (Program.send side msg completion)) ∧
      ∀ side result completion, Spares s.app (Program.returnResult side result completion)) ∧
    (∀ acts s, (ofApp built).play acts = some s → s.runner = .draining .engine 0 →
      (Program.report.run s.app).1.Balances) ∧
    ∀ acts s tester report, (ofApp built).play acts = some s → s.runner = .idle →
      (∀ side, s.busy side = none) →
      ((Program.runToEnd tester).run s.app).1 = .ok report → report.Balances := by
  have hnew := ordered_ofApp hbuilt
  have hreport (acts : List Act) (s : Scene) (hplay : (ofApp built).play acts = some s)
      (hrunner : s.runner = .draining .engine 0) : (Program.report.run s.app).1.Balances := by
    obtain ⟨acts', hrun⟩ := exists_run_of_play hplay
    obtain ⟨owners, hs⟩ := hnew.run hrun
    obtain ⟨owners', htallied⟩ := (tallied_ofApp hbuilt).tally hplay
    exact hs.balances (hnew.drains_run nofun hrun) htallied hrunner
  refine ⟨fun deeds s htally => ?_, hreport, fun acts s tester report hplay hrunner hidle hran => ?_⟩
  · obtain ⟨owners, hs⟩ := (tallied_ofApp hbuilt).tally htally
    exact ⟨hs.balance, hs.streamed, hs.flagged.spares_sendCmd, spares_send s.app,
      spares_returnResult s.app⟩
  · obtain ⟨acts', hrun⟩ := exists_run_of_play hplay
    obtain ⟨-, hkept⟩ := hnew.idle_run hrun hrunner
    have hdropped : (ofApp built).app.dropped = false := (rests_ofApp hbuilt).kept
    have hrests : s.Rests s.app .idle :=
      ⟨hnew.run hrun, rfl, hidle, hrunner, hkept.trans hdropped⟩
    obtain ⟨s₁, hinstalled, hs₁⟩ := hrests.exists_installed tester
    obtain ⟨ps, s', hpasses, hrunner', rfl, -⟩ := hs₁.exists_runToEnd hran
    obtain ⟨⟨more, hmore⟩, -⟩ := hinstalled.trans hpasses
    exact hreport (acts ++ more) s' (play_trans hplay hmore) hrunner'

/-- A tester that sends a ping and stops when it is answered. -/
def pinger : TesterScript where
  onStart := some [.sendCmd { name := "ping" } "ping" false [.stop] [], .startDone]

/-- A ping that was sent waits, and counts; in a run that returns it was answered. -/
theorem pinging_balances :
    ∃ s report, (ofApp responding).tally pinging = some s ∧
      s.app.counters.cmdsSent = 1 ∧ s.app.waitingOf .tester = 1 ∧
      s.app.counters.cmdsSent = s.app.counters.results + s.app.counters.failed +
        s.app.counters.cancelled + s.app.waitingOf .tester + s.app.endingsQueued .tester ∧
      ((Program.runToEnd pinger).run responding).1 = .ok report ∧
      report.env.counters.cmdsSent = 1 ∧ report.Balances := by
  have hbuilt : build {} (some "echo") "" .responder = .ok responding := rfl
  obtain ⟨hcourses, -, hruns⟩ := counters_balance hbuilt
  have hcounts : ((ofApp responding).tally pinging).map (fun s =>
      (s.app.counters.cmdsSent, s.app.waitingOf .tester)) = some (1, 1) := by
    decide +kernel
  have hreturns : ((Program.runToEnd pinger).run responding).1.toOption.map
      (·.env.counters.cmdsSent) = some 1 := by
    decide +kernel
  obtain ⟨s, htally, hs⟩ := Option.map_eq_some_iff.mp hcounts
  obtain ⟨report, hreport, hsent⟩ := Option.map_eq_some_iff.mp hreturns
  have hran : ((Program.runToEnd pinger).run responding).1 = .ok report := by
    cases hanswer : ((Program.runToEnd pinger).run responding).1 with
    | ok report' =>
      rw [hanswer] at hreport
      exact congrArg Except.ok (Option.some.inj hreport)
    | error e =>
      rw [hanswer] at hreport
      cases hreport
  exact ⟨s, report, htally, congrArg Prod.fst hs, congrArg Prod.snd hs,
    (hcourses pinging s htally).1, hran, hsent, hruns [] (ofApp responding) pinger report rfl rfl
      (fun _ => rfl) hran⟩

end Runs

end Scene
end App
end Switchboard
