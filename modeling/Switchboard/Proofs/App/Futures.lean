import Switchboard.Proofs.App.Acknowledging
/-!
# Futures and handlers

What a future comes to is what a handler or a completion in its place would have been told: the
fault with which the send was refused; or the last outcome, when it is delivered; or, if it will
never be, that whoever waited for it is gone. After a drop nothing is waited for any more.
-/
namespace Switchboard.App

variable {a b c : App} {k p : Nat} {future : FutureSend}

/-- What a future has come to; nothing as long as its promise is pending. -/
def resolution (a : App) (future : FutureSend) : Option Answer :=
  Program.readiness future a.promises

/-- A command still has to come to its end: its request waits, or its last delivery is queued. -/
def Due (a : App) (k : Nat) : Prop :=
  (∃ e ∈ a.router.table.entries, e.2.continuation = k) ∨
    ∃ o, .job (.resume k o true) ∈ a.testerWorker.queue

/-- What becomes of a command that was sent for a future, beside one that was sent for a handler.
Both wait; or the handler was called with the last outcome, and the future came to the same; or the
tester's worker has refused the delivery, and the handler will never be called. -/
inductive CmdFate (k : Nat) (future : FutureSend) (b c : App) : Prop
  | waits (hready : b.resolution future = none) (huncalled : c.history k = []) (hb : b.Due k)
    (hc : c.Due k) : CmdFate k future b c
  | called (o : Outcome) (hlast : o.isTerminal = true)
    (hready : ∀ turns : List Turn,
      (turns.foldl App.turned b).resolution future = some (.outcome o))
    (hcalled : ∀ turns : List Turn,
      (turns.foldl App.turned c).history k = [.arrival o true true, .returned]) :
    CmdFate k future b c
  | discarded (hshut : c.testerWorker.accepting = false) (hc : ¬ c.Due k)
    (hready : ∀ turns : List Turn, (turns.foldl App.turned b).resolution future =
      some (.outcome (.error (.cancelled "result handler dropped"))))
    (huncalled : ∀ turns : List Turn, (turns.foldl App.turned c).history k = []) :
    CmdFate k future b c

/-- What becomes of data that was sent for a future, beside data that was sent with a completion.
Both completions are queued behind as many other tasks; or both have run, and since then the future
is ready. -/
inductive DataFate (p : Nat) (completion : Completion) (future : FutureSend) (b c : App)
    (turns : List Turn) : Prop
  | waits (hready : (turns.foldl App.turned b).resolution future = none) (i : Nat)
    (hb : (turns.foldl App.turned b).Queued i (.promise p))
    (hc : (turns.foldl App.turned c).Queued i completion) : DataFate p completion future b c turns
  | ran (before after : List Turn) (heq : turns = before ++ .task .tester :: after)
    (hpending : (before.foldl App.turned b).resolution future = none)
    (hqueued : (before.foldl App.turned c).Queued 0 completion)
    (hready : ∀ more : List Turn,
      ((turns ++ more).foldl App.turned b).resolution future = some (.readySend (.ok ()))) :
    DataFate p completion future b c turns

/-- A command is sent for a future, and for a handler. The future is kept. Both sends leave the same
behind but for who listens; they are refused alike, and the future is ready at once then. -/
structure CmdForms (k : Nat) (tag : String) (handler : Handler) (future : FutureSend) (b : App)
    (sent : Except Fault RequestId × App) : Prop where
  kept : b.futures.lookup tag = some future
  same : b.stripped = sent.2.stripped
  queues : ∀ side, (b.worker side).queue.map maskedTask = (sent.2.worker side).queue.map maskedTask
  listens : sent.2.cells[k]? = some (.ofHandler handler)
  refused : ∀ e, sent.1 = .error e → ∀ turns : List Turn,
    (turns.foldl App.turned b).resolution future = some (.outcome (.error e))
  accepted : ∀ id, sent.1 = .ok id → ∀ turns : List Turn,
    CmdFate k future (turns.foldl App.turned b) (turns.foldl App.turned sent.2)

/-- Data is sent for a future, and with a completion. The future is kept. Both sends leave the same
behind but for the completions; they are refused alike, and the future is ready at once then, as it
is when the completion is refused. -/
structure DataForms (p : Nat) (tag : String) (completion : Completion) (future : FutureSend)
    (b : App) (sent : Except Fault Unit × App) : Prop where
  kept : b.futures.lookup tag = some future
  same : b.stripped = sent.2.stripped
  refused : ∀ e, sent.1 = .error e → ∀ turns : List Turn,
    (turns.foldl App.turned b).resolution future = some (.readySend (.error e))
  accepted : sent.1 = .ok () → sent.2.testerWorker.accepting = true → ∀ turns : List Turn,
    DataFate p completion future b sent.2 turns
  lost : sent.1 = .ok () → sent.2.testerWorker.accepting = false → ∀ turns : List Turn,
    (turns.foldl App.turned b).resolution future =
      some (.readySend (.error (.cancelled "completion handler dropped")))

/-- However the application goes on and ends, the future has come to something then. -/
def Settles (b : App) (future : FutureSend) : Prop :=
  ∀ b', Reached b b' → ∀ (e : Ending) (turns : List Turn),
    ((turns.foldl App.turned (b'.ended e)).resolution future).isSome

section Resolutions

/-- A future that is kept answers what it has come to, and goes on to be kept as long as it has come to
nothing. -/
theorem run_poll_kept {tag : String} (h : a.futures.lookup tag = some future) :
    (Program.poll tag).run a =
      match a.resolution future with
      | none => (.notReady, a)
      | some answer => (answer, { a with futures := a.futures.filter (·.1 ≠ tag) }) := by
  have hget : (get : Program App).run a = (a, a) := rfl
  rw [Program.poll, run_bind, hget, resolution]
  dsimp only
  rw [h]
  dsimp only
  cases Program.readiness future a.promises with
  | none => rfl
  | some answer => rfl

theorem promise_of_over {cell : Option (Nat × Continuation Handler)} {held : Promise}
    (hb : Watched (.over cell (some (p, held))) 0 b) (turns : List Turn) :
    (turns.foldl App.turned b).promises.getD p .lost = held := by
  have hheld := (hb.over_course turns).fits.2
  change (turns.foldl App.turned b).promises[p]? = some held at hheld
  rw [Array.getD_eq_getD_getElem?, hheld]
  rfl

theorem history_of_over {d : Continuation Handler} {promise : Option (Nat × Promise)}
    (hc : Watched (.over (some (k, d)) promise) 0 c) (turns : List Turn) :
    (turns.foldl App.turned c).history k = d.history :=
  history_of_getElem? ((hc.over_course turns).cell k d rfl)

/-- What is over is not due. -/
theorem Watched.not_due {d : Continuation Handler} {promise : Option (Nat × Promise)}
    (ha : Watched (.over (some (k, d)) promise) 0 a) : ¬ a.Due k := by
  obtain ⟨hnone, -⟩ := ha.fits
  obtain ⟨hwaiting, hqueues⟩ := ha.idle ((Nat.zero_add _).symm.trans hnone)
  rintro (⟨e, he, heq⟩ | ⟨o, ho⟩)
  · exact List.countP_eq_zero.mp hwaiting e he (decide_eq_true heq)
  · exact of_decide_eq_false (hqueues .tester _ ho) rfl

/-- A command whose promise is pending is due. -/
theorem Watched.due_of_pending (hb : Watched (.awaiting k p) 0 b)
    (hpending : b.promises[p]? = some .pending) : b.Due k := by
  have howed : b.router.table.waitingFor k +
      b.testerWorker.queue.countP (Watch.awaiting k p).keeps = 1 := by
    rcases hb.fits with ⟨hone, -⟩ | ⟨-, hlost⟩
    · exact (Nat.zero_add _).symm.trans hone
    · cases hpending.symm.trans hlost
  rcases Nat.eq_zero_or_pos (b.router.table.waitingFor k) with hnone | hpos
  · have hcount : 0 < b.testerWorker.queue.countP (Watch.awaiting k p).keeps := by omega
    obtain ⟨task, hmem, hkeeps⟩ := List.countP_pos_iff.mp hcount
    have htask : task ∈ (b.worker .tester).queue := hmem
    obtain ⟨o, -, rfl⟩ := hb.eq_resume_of_keeps htask hkeeps
    exact .inr ⟨o, htask⟩
  · obtain ⟨e, he, heq⟩ := List.countP_pos_iff.mp hpos
    exact .inl ⟨e, he, of_decide_eq_true heq⟩

theorem Beside.due (h : Beside (.awaiting k p) 0 b c) (hb : b.Due k) : c.Due k := by
  rcases hb with ⟨e, he, heq⟩ | ⟨o, ho⟩
  · exact .inl ⟨e, h.router ▸ he, heq⟩
  · have hmem : maskedTask (.job (.resume k o true)) ∈ c.testerWorker.queue.map maskedTask := by
      refine (h.queues .tester) ▸ List.mem_map_of_mem (List.mem_map.mpr ⟨_, ho, ?_⟩)
      exact Watch.replaced_eq (.inr rfl)
    obtain ⟨task, htask, halike⟩ := List.mem_map.mp hmem
    obtain rfl := eq_resume_of_masked halike
    exact .inr ⟨o, htask⟩

theorem Prospect.cmdFate (h : Prospect k p b c) : CmdFate k (.cmd (.ok p)) b c := by
  cases h with
  | waits h hc hpending =>
    obtain ⟨handler, hhandler⟩ := h.ofHandler rfl
    have hdue := h.watched.due_of_pending hpending
    refine .waits ?_ (history_of_getElem? hhandler) hdue (h.due hdue)
    rw [resolution, Program.readiness, Array.getD_eq_getD_getElem?, hpending]
    rfl
  | called o hlast hb hc =>
    refine .called o hlast (fun turns => ?_) (history_of_over hc)
    rw [resolution, Program.readiness, promise_of_over hb turns]
  | discarded h hc =>
    have hb := h.watched
    obtain ⟨handler, hhandler⟩ := h.ofHandler rfl
    obtain ⟨hnone, -⟩ := hb.fits
    have hc' := h.over_other hc rfl rfl ((Nat.zero_add _).symm.trans hnone) hhandler
    refine .discarded ?_ hc'.not_due (fun turns => ?_) (history_of_over hc')
    · exact (h.accepting .tester).symm.trans (hb.refused hb.fits.2)
    · rw [resolution, Program.readiness, promise_of_over hb turns]

theorem Watched.resolution_pending {completion : Completion}
    (hb : Watched (.scheduled p completion) 0 b) : b.resolution (.data (.ok p)) = none := by
  have hpending : b.promises[p]? = some .pending := hb.fits.2
  rw [resolution, Program.readiness, Array.getD_eq_getD_getElem?, hpending]
  rfl

theorem Beside.dataFate {completion : Completion} (h : Beside (.scheduled p completion) 0 b c)
    (hcompletion : ∀ i, completion ≠ .promise i) (turns : List Turn) :
    DataFate p completion (.data (.ok p)) b c turns := by
  rcases h.course turns with hwaits | ⟨before, after, rfl, hbefore, hqueued⟩
  · obtain ⟨i, hi⟩ := hwaits.watched.exists_queued
    exact .waits hwaits.watched.resolution_pending i hi (hwaits.queued hcompletion hi)
  · refine .ran before after rfl hbefore.watched.resolution_pending
      (hbefore.queued hcompletion hqueued) fun more => ?_
    have hsplit : ((before ++ .task .tester :: after) ++ more).foldl App.turned b =
        (after ++ more).foldl App.turned ((before.foldl App.turned b).turned (.task .tester)) := by
      rw [List.append_assoc, List.foldl_append]
      rfl
    rw [resolution, Program.readiness, hsplit,
      promise_of_over (hbefore.acknowledged hqueued) (after ++ more)]

end Resolutions

section Forms

variable {tag : String} {handler : Handler} {completion : Completion}

theorem Anchored.cmdForms (ha : a.Anchored) (tag : String) (cmd : Cmd)
    (hside : handler.side = .tester) (hhandler : ∀ i, handler ≠ .promise i) :
    ∃ future, CmdForms a.cells.size tag handler future ((Program.sendCmdAsync tag cmd).run a).2
      ((Program.sendCmd handler cmd false).run a) := by
  obtain ⟨hkept, hbeside⟩ := ha.sendCmdAsync tag cmd hside
  have hanchored : ((Program.sendCmd handler cmd false).run a).2.Anchored :=
    (heeds_sendCmd rfl (admits_of_ne hhandler) cmd false 0 a a
      (ha.watched.beside rfl)).2.watched.toAnchored
  refine ⟨_, hkept, hbeside.same, fun side => ?_, ?_, fun e he turns => ?_, fun id hid turns => ?_⟩
  · have hreplaced : (Watch.awaiting a.cells.size a.promises.size).replaced = id :=
      funext fun task => Watch.replaced_eq (.inr rfl)
    have hqueues := hbeside.queues side
    rwa [hreplaced, List.map_id] at hqueues
  · obtain ⟨events, hsent⟩ := @follows_sendFor "" .tester cmd false a.cells.size
      (a.withCells (a.cells.push (.ofHandler handler))) []
    have hrun : (Program.sendCmd handler cmd false).run a =
        (sendFor .tester cmd false a.cells.size).run
          (a.withCells (a.cells.push (.ofHandler handler))) := by
      rw [sendCmd_eq, hside]
      rfl
    rw [hrun]
    exact hsent.adds.cells _ _ Array.getElem?_push_size
  · rw [he]
    rfl
  · rw [hid] at hbeside ⊢
    exact ((hbeside.prospect hanchored).course turns).cmdFate

theorem Anchored.dataForms (ha : a.Anchored) (tag : String) (data : Data)
    (hcompletion : ∀ i, completion ≠ .promise i) :
    ∃ future, DataForms a.promises.size tag completion future
      ((Program.sendDataAsync tag data).run a).2
      ((Program.send .tester (.data data) (some completion)).run a) := by
  obtain ⟨hkept, hsame, hhanded⟩ := ha.sendDataAsync tag data hcompletion
  refine ⟨_, hkept, hsame, fun e he turns => ?_, fun hok hopen turns => ?_,
    fun hok hshut turns => ?_⟩
  · rw [he]
    rfl
  · rw [hok]
    exact ((hhanded hok).queued hopen).dataFate hcompletion turns
  · rw [hok, resolution]
    change Program.readiness (.data (.ok _)) _ = _
    rw [Program.readiness, promise_of_over ((hhanded hok).lost hshut) turns]

theorem Reached.trans {a b c : App} (h : Reached a b) (h' : Reached b c) : Reached a c := by
  induction h' with
  | here => exact h
  | move m _ ih => exact .move m ih

/-- What is torn down owes nothing to any command. -/
theorem Over.not_due (ha : a.Over) : ¬ a.Due k := by
  rintro (⟨e, he, -⟩ | ⟨o, ho⟩)
  · rw [ha.closing.entries] at he
    cases he
  · have hqueue : a.testerWorker.queue = [] := (ha.drained .tester).queue
    rw [hqueue] at ho
    cases ho

/-- An application that ends is torn down, and has come there by turns. -/
theorem Reached.over_ended {built b b' : App} (hbuilt : built.Steady) (hb : Reached built b)
    (hb' : Reached b b') (e : Ending) :
    (b'.ended e).Over ∧ ∃ turns : List Turn, b'.ended e = turns.foldl App.turned b :=
  ⟨(ends_ending e b' ((hb.trans hb').leads hbuilt).steady).2, hb'.exists_turns_ended e⟩

theorem CmdForms.settles {built : App} {sent : Except Fault RequestId × App}
    (h : CmdForms k tag handler future b sent) (hbuilt : built.Steady) (hb : Reached built b) :
    b.Settles future := by
  intro b' hb' e turns
  obtain ⟨hover, earlier, hturns⟩ := hb.over_ended hbuilt hb' e
  cases hsent : sent.1 with
  | error fault =>
    rw [hturns, ← List.foldl_append, h.refused fault hsent]
    rfl
  | ok id =>
    have hfate := h.accepted id hsent earlier
    rw [← hturns] at hfate
    cases hfate with
    | waits _ _ hdue _ => exact absurd hdue hover.not_due
    | called o _ hready _ =>
      rw [hready]
      rfl
    | discarded _ _ hready _ =>
      rw [hready]
      rfl

theorem DataForms.settles {built : App} {sent : Except Fault Unit × App}
    (h : DataForms p tag completion future b sent) (hbuilt : built.Steady) (hb : Reached built b) :
    b.Settles future := by
  intro b' hb' e turns
  obtain ⟨hover, earlier, hturns⟩ := hb.over_ended hbuilt hb' e
  rw [hturns, ← List.foldl_append]
  cases hsent : sent.1 with
  | error fault =>
    rw [h.refused fault hsent]
    rfl
  | ok _ =>
    cases hopen : sent.2.testerWorker.accepting with
    | false =>
      rw [h.lost hsent hopen]
      rfl
    | true =>
      cases h.accepted hsent hopen earlier with
      | waits _ i hqueued _ =>
        have hqueue : (b'.ended e).testerWorker.queue = [] := (hover.drained .tester).queue
        rw [← hturns, Queued, hqueue] at hqueued
        cases hqueued
      | ran _ _ _ _ _ hready =>
        rw [hready]
        rfl

end Forms

section Agreement

variable {config : Config} {name : Option String} {properties : String} {extension : Extension}
  {built : App}

/-- In whatever state an application that was built is, between any two turns: a command that is
sent for a future does what it does when it is sent for a handler, and the future comes to what the
handler is told, when it is told; so does data that is sent for a future, with respect to its
completion. However the application goes on, and however it ends, no future is left unresolved. -/
theorem futures_agree (hbuilt : build config name properties extension = .ok built)
    (before : List Turn) :
    let a := before.foldl App.turned built
    (∀ tag cmd handler, handler.side = .tester → (∀ i, handler ≠ .promise i) →
      ∃ future, CmdForms a.cells.size tag handler future ((Program.sendCmdAsync tag cmd).run a).2
          ((Program.sendCmd handler cmd false).run a) ∧
        (Reached built a → ((Program.sendCmdAsync tag cmd).run a).2.Settles future)) ∧
    ∀ tag data completion, (∀ i, completion ≠ .promise i) →
      ∃ future, DataForms a.promises.size tag completion future
          ((Program.sendDataAsync tag data).run a).2
          ((Program.send .tester (.data data) (some completion)).run a) ∧
        (Reached built a → ((Program.sendDataAsync tag data).run a).2.Settles future) := by
  intro a
  have ha : a.Anchored := (anchored_of_build hbuilt).course before
  have hsteady := steady_of_build hbuilt
  constructor
  · intro tag cmd handler hside hhandler
    obtain ⟨future, hforms⟩ := ha.cmdForms tag cmd hside hhandler
    exact ⟨future, hforms, fun hreached =>
      hforms.settles hsteady (.move (.step (.asyncCmd tag cmd)) hreached)⟩
  · intro tag data completion hcompletion
    obtain ⟨future, hforms⟩ := ha.dataForms tag data hcompletion
    exact ⟨future, hforms, fun hreached =>
      hforms.settles hsteady (.move (.step (.asyncData tag data)) hreached)⟩

/-- A ping is sent for a future. -/
def wondering : App :=
  ((Program.sendCmdAsync "later" { name := "ping" }).run responding).2

/-- The extension is initialised and answers the ping, and nothing but the delivery of its answer
readies the future. -/
theorem wondering_futures_agree :
    build {} (some "echo") "" .responder = .ok responding ∧
      (∃ future, CmdForms 0 "later" (.scripted .tester "ping" [] [] none) future wondering
          ((Program.sendCmd (.scripted .tester "ping" [] [] none) { name := "ping" } false).run
            responding) ∧ wondering.Settles future ∧ future = .cmd (.ok 0)) ∧
      (∃ future, DataForms 0 "news" (.scripted (.mk "sent" [])) future
          ((Program.sendDataAsync "news" { name := "news" }).run responding).2
          ((Program.send .tester (.data { name := "news" })
            (some (.scripted (.mk "sent" [])))).run responding)) ∧
      let answered := (wondering.turned (.task .engine)).turned (.task .engine)
      (answered.resolution (.cmd (.ok 0))).isNone = true ∧
        ((answered.turned (.task .tester)).resolution (.cmd (.ok 0))).isSome = true := by
  have hbuilt : build {} (some "echo") "" .responder = .ok responding := rfl
  obtain ⟨hcmd, hdata⟩ := futures_agree hbuilt []
  obtain ⟨future, hforms, hsettles⟩ := hcmd "later" { name := "ping" }
    (.scripted .tester "ping" [] [] none) rfl nofun
  obtain ⟨news, hnews, -⟩ := hdata "news" { name := "news" } (.scripted (.mk "sent" [])) nofun
  have hfuture : future = .cmd (.ok 0) := Option.some.inj (hforms.kept.symm.trans rfl)
  exact ⟨hbuilt, ⟨future, hforms, hsettles .here, hfuture⟩, ⟨news, hnews⟩, by decide +kernel,
    by decide +kernel⟩

end Agreement

end Switchboard.App
