import Switchboard.Proofs.App.Awaiting
/-!
# Waiting until a message was handed over

Data is sent for a future whose promise a completion keeps, where another one may be queued in its
place. Both applications go on beside each other until the completion runs.
-/
namespace Switchboard.App

variable {w : Watch} {hand p : Nat} {a b c : App} {completion : Completion}

/-- A completion is among the tasks of the tester's worker, behind so many others. -/
def Queued (a : App) (i : Nat) (completion : Completion) : Prop :=
  a.testerWorker.queue[i]? = some (.job (.completion completion))

section Beginnings

/-- A completion is queued by which a promise is to be kept, and in another application another one
in its place. -/
def Watch.scheduled (p : Nat) (completion : Completion) : Watch where
  cell := none
  promise := some p
  twin := some completion
  promises := p + 1
  fits owed held := owed = 1 ∧ held = some .pending
  inRange := lt_succ_of_some_eq p
  loses _ _ _ _ hcell := absurd hcell.symm (Option.some_ne_none _)

/-- A new promise, beside none: the completion that keeps it is in hand. -/
theorem Anchored.scheduled (ha : a.Anchored) (completion : Completion) :
    Beside (.scheduled a.promises.size completion) 1 (a.withPromises (a.promises.push .pending))
      a := by
  have hpromise (p : Nat) (h : (Watch.scheduled a.promises.size completion).promise = some p) :
      p = a.promises.size := (Option.some.inj h).symm
  have hnumber (k : Nat) (h : (Watch.scheduled a.promises.size completion).number = some k) :
      k = a.cells.size := absurd h.symm (Option.some_ne_none _)
  have hkeeps (side : Side) (task : Task Job) (htask : task ∈ (a.worker side).queue) :
      (Watch.scheduled a.promises.size completion).keeps task = false :=
    (ha.tasks side task htask).keeps_eq_false hnumber hpromise
  have hsize : (a.promises.push .pending).size = a.promises.size + 1 := Array.size_push _
  have hheld : (a.promises.push .pending)[a.promises.size]? = some .pending :=
    Array.getElem?_push_size
  constructor
  · refine { ha with
      tasks := fun side task htask =>
        (ha.tasks side task htask).mono (Nat.le_refl _) (hsize ▸ Nat.le_succ _)
      handlers := fun i d p hfound hslot =>
        Nat.lt_of_lt_of_le (ha.handlers i d p hfound hslot) (hsize ▸ Nat.le_succ _)
      cell := nofun
      cells := Nat.zero_le _
      promises := Nat.le_of_eq hsize.symm
      sole := ?_
      asked := fun _ _ hwatched => absurd hwatched.symm (Option.some_ne_none _)
      kept := fun side task htask hkept => ?_
      fits := ⟨congrArg (1 + ·) (ha.owed_eq_zero hnumber hpromise), hheld⟩
      refused := fun hlost => ?_ }
    · rintro i d _ ⟨⟩ hfound hslot
      exact absurd (ha.handlers i d _ hfound hslot) (Nat.lt_irrefl _)
    · rw [hkeeps side task htask] at hkept
      cases hkept
    · cases hheld.symm.trans hlost
  · rfl
  · intro side
    have hreplaced : (a.worker side).queue.map (Watch.scheduled a.promises.size completion).replaced =
        (a.worker side).queue :=
      (List.map_congr_left fun task htask =>
        Watch.replaced_eq (.inl (hkeeps side task htask))).trans (List.map_id _)
    exact congrArg (List.map maskedTask) hreplaced
  · exact fun _ => rfl

end Beginnings

section Settling

/-- The completion that was in hand is settled in some way, and nobody else keeps its promise. -/
theorem Watched.settled (ha : Watched (.scheduled p completion) 1 a) {held : Promise}
    (hlost : held = .lost → a.testerWorker.accepting = false) :
    Watched (.over none (some (p, held))) 0
      (a.withPromises (a.promises.setIfInBounds p held)) := by
  obtain ⟨hone, -⟩ := ha.fits
  obtain ⟨hwaiting, hqueues⟩ := ha.idle (by omega)
  have hanchored := (ha.toAnchored.watched.settle (i := p) nofun held).toAnchored
  refine hanchored.over nofun ?_ ?_ hwaiting hqueues ?_
  · rintro _ _ ⟨⟩
    exact Array.getElem?_setIfInBounds_self_of_lt ha.promises
  · rintro i d _ ⟨⟩ hfound hslot
    exact ha.sole i d p rfl hfound hslot
  · rintro _ ⟨⟩
    exact hlost rfl

/-- A task that is for the promise is the completion that keeps it. -/
theorem eq_completion_of_keeps {task : Task Job}
    (h : (Watch.scheduled p completion).keeps task = true) :
    task = .job (.completion (.promise p)) := by
  rcases task with job | _
  · cases job with
    | completion completion =>
      cases completion with
      | promise i =>
        obtain rfl : p = i := Option.some.inj (of_decide_eq_true h)
        rfl
      | scripted | foreign => cases h
    | resume | arrival | initExtension | startExtension | phase => cases h
  · cases h

/-- A turn that is for a completion that is queued runs it. -/
theorem Watched.acknowledgement {t : Turn} (hb : Watched (.scheduled p completion) hand b)
    (hmeets : t.Meets (.scheduled p completion) b) :
    t = .task .tester ∧ b.Queued 0 (.promise p) := by
  cases t with
  | task side =>
    obtain ⟨task, hnext, hkeeps⟩ := hmeets
    obtain ⟨tasks, hqueue⟩ := exists_queue_of_next hnext
    obtain ⟨rfl, -⟩ := hb.kept side task (hqueue ▸ List.mem_cons_self) hkeeps
    obtain rfl := eq_completion_of_keeps hkeeps
    exact ⟨rfl, congrArg (·[0]?) hqueue⟩
  | step | host | start | answer | flush | abort | shutDown | leave => cases hmeets

/-- The completion runs, and keeps the promise for good. -/
theorem Beside.acknowledged (h : Beside (.scheduled p completion) 0 b c)
    (hqueued : b.Queued 0 (.promise p)) :
    Watched (.over none (some (p, .sent))) 0 (b.turned (.task .tester)) := by
  obtain ⟨tasks, hqueue⟩ : ∃ tasks, (b.worker .tester).queue =
      .job (.completion (.promise p)) :: tasks := List.head?_eq_some_iff.mp
    (List.head?_eq_getElem?.trans hqueued)
  obtain ⟨task, -, -, hpopped⟩ := h.popped hqueue
  have hnext : (b.worker .tester).next.1 = some (.job (.completion (.promise p))) := by
    rw [Worker.next, hqueue]
  have hkeeps : (Watch.scheduled p completion).keeps (.job (.completion (.promise p))) = true :=
    decide_eq_true rfl
  rw [if_pos hkeeps] at hpopped
  have hrun : (Program.runJob .tester (.completion (.promise p))).run (b.popped .tester) =
      (.ok (), (b.popped .tester).withPromises
        ((b.popped .tester).promises.setIfInBounds p .sent)) := rfl
  have hsettled : Watched (.over none (some (p, .sent))) 0 ((b.popped .tester).withPromises
      ((b.popped .tester).promises.setIfInBounds p .sent)) :=
    hpopped.watched.settled fun hlost => by cases hlost
  change Watched _ 0 ((Program.advance .tester).run b).2
  rw [run_advance_job hnext, hrun]
  exact ((hsettled.beside rfl).counted .tester _).watched

end Settling

section Queues

/-- The completion that keeps the promise is queued. -/
theorem Watched.exists_queued (hb : Watched (.scheduled p completion) 0 b) :
    ∃ i, b.Queued i (.promise p) := by
  obtain ⟨hone, -⟩ := hb.fits
  have hcount : 0 < b.testerWorker.queue.countP (Watch.scheduled p completion).keeps := by
    change 0 + (0 + b.testerWorker.queue.countP (Watch.scheduled p completion).keeps) = 1 at hone
    omega
  obtain ⟨task, htask, hkeeps⟩ := List.countP_pos_iff.mp hcount
  obtain rfl := eq_completion_of_keeps hkeeps
  exact List.mem_iff_getElem?.mp htask

/-- The completions are queued behind as many other tasks. -/
theorem Beside.queued {i : Nat} (h : Beside (.scheduled p completion) 0 b c)
    (hcompletion : ∀ i, completion ≠ .promise i) (hb : b.Queued i (.promise p)) :
    c.Queued i completion := by
  have hqueues := congrArg (·[i]?) (h.queues .tester)
  have hreplaced : (Watch.scheduled p completion).replaced (.job (.completion (.promise p))) =
      .job (.completion completion) := if_pos rfl
  have hfound : (b.worker .tester).queue[i]? = some (.job (.completion (.promise p))) := hb
  simp only [List.getElem?_map, hfound, Option.map_some, hreplaced] at hqueues
  obtain ⟨other, hother, halike⟩ := Option.map_eq_some_iff.mp hqueues.symm
  exact hother.trans (congrArg some (eq_completion_of_masked halike hcompletion))

/-- Both completions wait, or both have run: the turn in which they did is known. -/
theorem Beside.course (h : Beside (.scheduled p completion) 0 b c) (turns : List Turn) :
    Beside (.scheduled p completion) 0 (turns.foldl App.turned b) (turns.foldl App.turned c) ∨
      ∃ before after, turns = before ++ .task .tester :: after ∧
        Beside (.scheduled p completion) 0 (before.foldl App.turned b) (before.foldl App.turned c) ∧
        (before.foldl App.turned b).Queued 0 (.promise p) := by
  induction turns generalizing b c with
  | nil => exact .inl h
  | cons t turns ih =>
    by_cases hmeets : t.Meets (.scheduled p completion) b
    · obtain ⟨rfl, hqueued⟩ := h.watched.acknowledgement hmeets
      exact .inr ⟨[], turns, rfl, h, hqueued⟩
    · rcases ih (h.turned hmeets) with hwaits | ⟨before, after, rfl, hbefore, hqueued⟩
      · exact .inl hwaits
      · exact .inr ⟨t :: before, after, rfl, hbefore, hqueued⟩

end Queues

section Sendings

theorem run_scheduleCompletion_accepted (h : a.testerWorker.accepting = true)
    (completion : Completion) : (Program.scheduleCompletion completion).run a =
      ((), a.enqueued .tester (.job (.completion completion))) := by
  have hrun : ((Program.worker .tester).step (·.execute (.completion completion))).run a =
      (((a.worker .tester).accept (.job (.completion completion))).1,
        a.setWorker .tester ((a.worker .tester).accept (.job (.completion completion))).2) := rfl
  rw [Worker.accept_of_accepting (w := a.worker .tester) h] at hrun
  unfold Program.scheduleCompletion
  rw [run_bind, hrun]
  rfl

/-- The application after the worker of the tester has refused a completion. -/
def forgetting (a : App) : Completion → App
  | .promise i => a.withPromises (a.promises.setIfInBounds i .lost)
  | .scripted _ | .foreign .. => a

theorem run_scheduleCompletion_refused (h : a.testerWorker.accepting = false)
    (completion : Completion) :
    (Program.scheduleCompletion completion).run a = ((), a.forgetting completion) := by
  have hrun : ((Program.worker .tester).step (·.execute (.completion completion))).run a =
      (((a.worker .tester).accept (.job (.completion completion))).1,
        a.setWorker .tester ((a.worker .tester).accept (.job (.completion completion))).2) := rfl
  rw [Worker.accept_of_not_accepting (w := a.worker .tester) h, setWorker_self] at hrun
  unfold Program.scheduleCompletion
  rw [run_bind, hrun]
  cases completion with
  | promise | scripted | foreign => rfl

/-- A message was handed over: its completion is queued, or the promise is lost. -/
structure Handed (p : Nat) (completion : Completion) (b c : App) : Prop where
  same : b.stripped = c.stripped
  queued : c.testerWorker.accepting = true → Beside (.scheduled p completion) 0 b c
  lost : c.testerWorker.accepting = false → Watched (.over none (some (p, .lost))) 0 b

/-- The completions are queued, or both are refused. -/
theorem Beside.scheduled (h : Beside (.scheduled p completion) 1 b c)
    (hcompletion : ∀ i, completion ≠ .promise i) :
    Handed p completion ((Program.scheduleCompletion (.promise p)).run b).2
      ((Program.scheduleCompletion completion).run c).2 := by
  have halike : b.testerWorker.accepting = c.testerWorker.accepting := h.accepting .tester
  cases haccepting : c.testerWorker.accepting with
  | true =>
    rw [run_scheduleCompletion_accepted (halike.trans haccepting),
      run_scheduleCompletion_accepted haccepting]
    have hkeeps : (Watch.scheduled p completion).keeps (.job (.completion (.promise p))) = true :=
      decide_eq_true rfl
    have hreplaced : (Watch.scheduled p completion).replaced (.job (.completion (.promise p))) =
        .job (.completion completion) := if_pos rfl
    have hbeside : Beside (.scheduled p completion) 0
        (b.enqueued .tester (.job (.completion (.promise p))))
        (c.enqueued .tester (.job (.completion completion))) :=
      Beside.enqueued (by rwa [if_pos hkeeps]) (congrArg maskedTask hreplaced) (Nat.lt_succ_self p)
        fun _ => ⟨rfl, rfl⟩
    exact ⟨hbeside.same, fun _ => hbeside, fun hshut => (nomatch haccepting.symm.trans hshut)⟩
  | false =>
    rw [run_scheduleCompletion_refused (halike.trans haccepting),
      run_scheduleCompletion_refused haccepting]
    have hforgotten : c.forgetting completion = c := by
      cases completion with
      | promise i => exact absurd rfl (hcompletion i)
      | scripted | foreign => rfl
    rw [hforgotten]
    refine ⟨h.same, fun hopen => (nomatch haccepting.symm.trans hopen), fun _ => ?_⟩
    exact h.watched.settled fun _ => halike.trans haccepting

/-- Both make a call, and when it succeeds they queue their completions. -/
theorem Beside.handed {call : Program (Except Fault Unit)}
    (h : Beside (.scheduled p completion) 1 b c)
    (hcall : Heeds (.scheduled p completion) call call) (f : Counters → Counters)
    (hcompletion : ∀ i, completion ≠ .promise i) :
    let kept := (Program.counted call f (some (.promise p))).run b
    let sent := (Program.counted call f (some completion)).run c
    kept.1 = sent.1 ∧ kept.2.stripped = sent.2.stripped ∧
      (sent.1 = .ok () → Handed p completion kept.2 sent.2) := by
  obtain ⟨hanswer, hcalled⟩ := heeds_during hcall 1 b c h
  rw [Program.counted, Program.counted, run_bind, run_bind, ← hanswer]
  cases ((PermitPool.during Program.pool call).run b).1 with
  | error e => exact ⟨rfl, hcalled.same, nofun⟩
  | ok _ =>
    have hhanded := (heeds_count f 1 _ _ hcalled).2.scheduled hcompletion
    exact ⟨rfl, hhanded.same, fun _ => hhanded⟩

theorem run_send_tester (msg : Message) (completion : Option Completion) (a : App) :
    (Program.send .tester msg completion).run a =
      (Program.counted ((a.outlet .tester).send Program.fabric msg)
        (fun c => { c with oneWaySent := c.oneWaySent + 1 }) completion).run a := rfl

/-- Nobody looks at futures. -/
theorem Handed.futures (h : Handed p completion b c) (futures : List (String × FutureSend)) :
    Handed p completion { b with futures } c where
  same := h.same
  queued hopen := (h.queued hopen).futures futures c.futures
  lost hshut := (h.lost hshut).congr rfl (fun _ => rfl) rfl rfl

/-- Data is sent for a future beside data that is sent with a completion: both are answered alike,
and do the same. -/
theorem Anchored.sendDataAsync (ha : a.Anchored) (tag : String) (data : Data)
    (hcompletion : ∀ i, completion ≠ .promise i) :
    let sent := (Program.send .tester (.data data) (some completion)).run a
    let kept := ((Program.sendDataAsync tag data).run a).2
    kept.futures.lookup tag = some (.data (sent.1.map fun _ => a.promises.size)) ∧
      kept.stripped = sent.2.stripped ∧
      (sent.1 = .ok () → Handed a.promises.size completion kept sent.2) := by
  have hasync : ((Program.sendDataAsync tag data).run a).2 =
      ((Program.keepFuture tag (.data (((Program.send .tester (.data data)
        (some (.promise a.promises.size))).run (a.withPromises (a.promises.push .pending))).1.map
          fun _ => a.promises.size))).run
        ((Program.send .tester (.data data) (some (.promise a.promises.size))).run
          (a.withPromises (a.promises.push .pending))).2).2 := rfl
  obtain ⟨hanswer, hsame, hhanded⟩ := (ha.scheduled completion).handed
    (composes_heeds.send fits_heeds.toReaches (a.outlet .tester) (.data data))
    (fun c => { c with oneWaySent := c.oneWaySent + 1 }) hcompletion
  dsimp only
  rw [hasync, run_send_tester, run_send_tester]
  refine ⟨?_, hsame, fun hok => (hhanded hok).futures _⟩
  rw [← hanswer]
  exact List.lookup_cons_self

end Sendings

end Switchboard.App
