import Switchboard.Proofs.Context.Shifts
/-!
# Workshops work in shifts

Whatever orders a workshop obeys, its worker does nothing but what a worker does in a shift: an
order is a demand from outside, the acts of a job are demands from inside, and to wait is to let the
worker take its tasks. So a workshop runs what its worker has accepted: whenever a job begins, it
performs its acts in order, up to its first panic, and what it notes is what these acts note.
-/
namespace Switchboard

variable {τ J : Type}

/-- What an order demands of the worker. -/
def Order.demand? : Order τ → Option (Worker.Demand (Work τ))
  | execute job => some (.execute job)
  | flush => some .flush
  | flushTimeout | flushHeld => some .flushTimeout
  | shutDown => some .shutDown
  | info => none

/-- What an order is told by the worker. -/
def OrderAnswer.answers : OrderAnswer → List (Except Fault Unit)
  | done result => [result]
  | inTime result => [result.map fun _ => ()]
  | info .. => []

namespace ShiftEntry

/-- What somebody outside demanded. -/
def outsideDemand? : ShiftEntry J → Option (Worker.Demand J)
  | demanded false demand _ => some demand
  | demanded true .. | began _ | ended _ => none

/-- What somebody outside was told. -/
def outsideAnswer? : ShiftEntry J → Option (Except Fault Unit)
  | demanded false _ answer => some answer
  | demanded true .. | began _ | ended _ => none

end ShiftEntry

/-- What is logged and what is noted when a job performs an act, and how the act ends. -/
inductive WorkAct.Enacted : WorkAct τ → List (ShiftEntry (Work τ)) → List (WorkNote τ) →
    Except Panic Unit → Prop
  | note (tag : τ) : Enacted (.note tag) [] [.tag tag] (.ok ())
  | look (tag : τ) : Enacted (.look tag) [] [.looked tag true] (.ok ())
  | flush (first second : Except Fault Unit) :
      Enacted .flush [.demanded true .flush first, .demanded true .flushTimeout second]
        [.flushed first second] (.ok ())
  | shutDown : Enacted .shutDown [.demanded true .shutDown (.ok ())] [] (.ok ())
  | queue (tag : τ) (job : Work τ) (answer : Except Fault Unit) :
      Enacted (.queue tag job) [.demanded true (.execute job) answer] [.queued tag answer] (.ok ())
  | panic (panic : Panic) : Enacted (.panic panic) [] [] (.error panic)

/-- What is logged and what is noted when a job performs its acts, and how it ends: it ends well
after its last act, and at the first act that panics. -/
inductive Work.Enacted : Work τ → List (ShiftEntry (Work τ)) → List (WorkNote τ) →
    Except Panic Unit → Prop
  | done : Enacted [] [] [] (.ok ())
  | panicked {act : WorkAct τ} {acts : Work τ} {entries : List (ShiftEntry (Work τ))}
      {notes : List (WorkNote τ)} {panic : Panic} (first : act.Enacted entries notes (.error panic)) :
      Enacted (act :: acts) entries notes (.error panic)
  | next {act : WorkAct τ} {acts : Work τ} {entries more : List (ShiftEntry (Work τ))}
      {notes later : List (WorkNote τ)} {ending : Except Panic Unit}
      (first : act.Enacted entries notes (.ok ())) (rest : Enacted acts more later ending) :
      Enacted (act :: acts) (entries ++ more) (notes ++ later) ending

/-- The log of a worker and what its jobs have noted by then. What is demanded from outside leaves
no note; between the beginning of a job and its end stands what the job does. -/
inductive Diary : List (ShiftEntry (Work τ)) → List (WorkNote τ) → Prop
  | blank : Diary [] []
  | demanded {log : List (ShiftEntry (Work τ))} {notes : List (WorkNote τ)}
      (before : Diary log notes) (demand : Worker.Demand (Work τ)) (answer : Except Fault Unit) :
      Diary (log ++ [.demanded false demand answer]) notes
  | mark {log : List (ShiftEntry (Work τ))} {notes : List (WorkNote τ)} (before : Diary log notes) :
      Diary (log ++ [.began .mark, .ended (.ok ())]) notes
  | job {log entries : List (ShiftEntry (Work τ))} {notes more : List (WorkNote τ)} {job : Work τ}
      {ending : Except Panic Unit} (before : Diary log notes)
      (enacted : Work.Enacted job entries more ending) :
      Diary (log ++ (.began (.job job) :: (entries ++ [.ended ending]))) (notes ++ more)

/-- Jobs demand from inside only. -/
theorem WorkAct.Enacted.inside {act : WorkAct τ} {entries : List (ShiftEntry (Work τ))}
    {notes : List (WorkNote τ)} {ending : Except Panic Unit}
    (h : act.Enacted entries notes ending) {entry : ShiftEntry (Work τ)} (hentry : entry ∈ entries) :
    entry.outsideDemand? = none ∧ entry.outsideAnswer? = none := by
  cases h with
  | note tag => cases hentry
  | look tag => cases hentry
  | panic panic => cases hentry
  | flush first second =>
    rcases List.mem_cons.mp hentry with rfl | hentry
    · exact ⟨rfl, rfl⟩
    · obtain rfl := List.mem_singleton.mp hentry
      exact ⟨rfl, rfl⟩
  | shutDown =>
    obtain rfl := List.mem_singleton.mp hentry
    exact ⟨rfl, rfl⟩
  | queue tag job answer =>
    obtain rfl := List.mem_singleton.mp hentry
    exact ⟨rfl, rfl⟩

theorem Work.Enacted.inside {job : Work τ} {entries : List (ShiftEntry (Work τ))}
    {notes : List (WorkNote τ)} {ending : Except Panic Unit}
    (h : Work.Enacted job entries notes ending) {entry : ShiftEntry (Work τ)}
    (hentry : entry ∈ entries) : entry.outsideDemand? = none ∧ entry.outsideAnswer? = none := by
  induction h with
  | done => cases hentry
  | panicked first => exact first.inside hentry
  | next first _ ih => exact (List.mem_append.mp hentry).elim first.inside ih

namespace Shift

/-- A shift can go on until its worker and the running task are these and its log has been continued
by these entries. -/
def Leads (s : Shift J) (worker : Worker J) (running : Option (Task J))
    (entries : List (ShiftEntry J)) : Prop :=
  ∃ acts, s.run acts = some { worker, running, log := s.log ++ entries }

section Steps

variable {worker worker' : Worker J} {running running' : Option (Task J)} {task : Task J}
  {entries more : List (ShiftEntry J)} {s : Shift J}

theorem leads_here : s.Leads s.worker s.running [] :=
  ⟨[], by rw [List.append_nil, run]⟩

/-- To go on from where a shift has come. -/
theorem Leads.trans (h : s.Leads worker running entries)
    (hnext : Leads { worker, running, log := s.log ++ entries } worker' running' more) :
    s.Leads worker' running' (entries ++ more) := by
  obtain ⟨acts, hrun⟩ := h
  obtain ⟨next, hmore⟩ := hnext
  refine ⟨acts ++ next, ?_⟩
  rw [run_trans hrun hmore, List.append_assoc]

/-- A running job demands something. -/
theorem leads_demandInside (h : s.running = some task) (demand : Worker.Demand J) :
    s.Leads (s.worker.meet true demand).2 (some task)
      [.demanded true demand (s.worker.meet true demand).1] := by
  refine ⟨[.demand true demand], run_singleton ?_⟩
  rw [perform, h]
  rfl

/-- Somebody outside demands something. -/
theorem leads_demandOutside (s : Shift J) (demand : Worker.Demand J) :
    s.Leads (s.worker.meet false demand).2 s.running
      [.demanded false demand (s.worker.meet false demand).1] :=
  ⟨[.demand false demand], run_singleton rfl⟩

/-- An idle worker takes its oldest task. -/
theorem leads_take (hidle : s.running = none) {tasks : List (Task J)}
    (hqueue : s.worker.queue = task :: tasks) :
    s.Leads { s.worker with queue := tasks } (some task) [.began task] := by
  refine ⟨[.take], run_singleton ?_⟩
  rw [perform, Worker.next, hidle, hqueue]

/-- A task ends. -/
theorem leads_finish (h : s.running = some task) (ending : Except Panic Unit) :
    s.Leads (s.worker.count ending) none [.ended ending] := by
  refine ⟨[.finish ending], run_singleton ?_⟩
  rw [perform, h]
  rfl

end Steps

end Shift

namespace Workshop

/-- Obeys orders, one after the other. -/
def obeyAll (w : Workshop τ) : List (Order τ) → List OrderAnswer × Workshop τ
  | [] => ([], w)
  | order :: orders =>
    let (answer, w) := w.obey order
    let (answers, w) := w.obeyAll orders
    (answer :: answers, w)

/-- An idle shift has come as far as a workshop: it was asked and told these things from outside, and
its jobs have noted what is noted. -/
structure Stands (w : Workshop τ) (demands : List (Worker.Demand (Work τ)))
    (answers : List (Except Fault Unit)) (s : Shift (Work τ)) : Prop where
  worker : s.worker = w.worker
  idle : s.running = none
  demands : s.log.filterMap ShiftEntry.outsideDemand? = demands
  answers : s.log.filterMap ShiftEntry.outsideAnswer? = answers
  diary : Diary s.log w.notes

/-- A shift can go on as far as a workshop. -/
def MatchedFrom (s : Shift (Work τ)) (w : Workshop τ) (demands : List (Worker.Demand (Work τ)))
    (answers : List (Except Fault Unit)) : Prop :=
  ∃ acts s', s.run acts = some s' ∧ w.Stands demands answers s'

section Orders

variable {v w : Workshop τ} {demands demands' : List (Worker.Demand (Work τ))}
  {answers answers' : List (Except Fault Unit)} {s : Shift (Work τ)} {task : Task (Work τ)}

theorem Stands.here (h : w.Stands demands answers s) : MatchedFrom s w demands answers :=
  ⟨[], s, rfl, h⟩

/-- To go on from wherever a shift has come. -/
theorem MatchedFrom.trans (h : MatchedFrom s w demands answers)
    (hnext : ∀ {s' : Shift (Work τ)}, w.Stands demands answers s' →
      MatchedFrom s' v demands' answers') : MatchedFrom s v demands' answers' := by
  obtain ⟨acts, s', hrun, hs'⟩ := h
  obtain ⟨more, s'', hmore, hs''⟩ := hnext hs'
  exact ⟨acts ++ more, s'', Shift.run_trans hrun hmore, hs''⟩

/-- An act of a job is some demands from inside. -/
theorem leads_perform (hworker : s.worker = w.worker) (hrunning : s.running = some task)
    (act : WorkAct τ) : ∃ entries notes, s.Leads (w.perform act).2.worker (some task) entries ∧
      (w.perform act).2.notes = w.notes ++ notes ∧ act.Enacted entries notes (w.perform act).1 := by
  have hhere : s.Leads w.worker (some task) [] := by
    rw [← hworker, ← hrunning]
    exact Shift.leads_here
  cases act with
  | note tag => exact ⟨_, _, hhere, rfl, .note tag⟩
  | look tag => exact ⟨_, _, hhere, rfl, .look tag⟩
  | panic panic => exact ⟨_, _, hhere, (List.append_nil _).symm, .panic panic⟩
  | shutDown =>
    have hdone := Shift.leads_demandInside hrunning .shutDown
    rw [hworker] at hdone
    exact ⟨_, _, hdone, (List.append_nil _).symm, .shutDown⟩
  | queue tag job =>
    have hdone := Shift.leads_demandInside hrunning (.execute job)
    rw [hworker] at hdone
    exact ⟨_, _, hdone, rfl, .queue tag job _⟩
  | flush =>
    have hfirst := Shift.leads_demandInside hrunning .flush
    rw [hworker] at hfirst
    exact ⟨_, _, hfirst.trans (Shift.leads_demandInside rfl .flushTimeout), rfl, .flush _ _⟩

/-- A job is its acts, up to the first panic. -/
theorem leads_runJob (hworker : s.worker = w.worker) (hrunning : s.running = some task)
    (job : Work τ) : ∃ entries notes, s.Leads (w.runJob job).2.worker (some task) entries ∧
      (w.runJob job).2.notes = w.notes ++ notes ∧
      Work.Enacted job entries notes (w.runJob job).1 := by
  induction job generalizing w s with
  | nil =>
    refine ⟨[], [], ?_, (List.append_nil _).symm, .done⟩
    rw [runJob, ← hworker, ← hrunning]
    exact Shift.leads_here
  | cons act acts ih =>
    obtain ⟨entries, notes, hleads, hnotes, hfirst⟩ := leads_perform hworker hrunning act
    rw [runJob]
    rcases hact : w.perform act with ⟨panic | ⟨⟩, v⟩
    · rw [hact] at hleads hnotes hfirst
      exact ⟨entries, notes, hleads, hnotes, .panicked hfirst⟩
    · rw [hact] at hleads hnotes hfirst
      obtain ⟨more, later, hrest, hlater, henacted⟩ :=
        ih (w := v) (s := { worker := _, running := _, log := s.log ++ entries }) rfl rfl
      refine ⟨entries ++ more, notes ++ later, hleads.trans hrest, ?_, .next hfirst henacted⟩
      rw [hlater, hnotes, List.append_assoc]

/-- A shift has run a task, and nothing was demanded from outside meanwhile. -/
theorem Stands.ran (h : w.Stands demands answers s) {entries : List (ShiftEntry (Work τ))}
    (hleads : s.Leads v.worker none entries)
    (hinside : ∀ entry ∈ entries, entry.outsideDemand? = none ∧ entry.outsideAnswer? = none)
    (hdiary : Diary (s.log ++ entries) v.notes) : MatchedFrom s v demands answers := by
  obtain ⟨acts, hrun⟩ := hleads
  refine ⟨acts, _, hrun, rfl, rfl, ?_, ?_, hdiary⟩
  · rw [List.filterMap_append, h.demands,
      List.filterMap_eq_nil_iff.mpr fun entry hentry => (hinside entry hentry).1, List.append_nil]
  · rw [List.filterMap_append, h.answers,
      List.filterMap_eq_nil_iff.mpr fun entry hentry => (hinside entry hentry).2, List.append_nil]

/-- To advance is to take a task and to end it. Between the two a job does what it does. -/
theorem Stands.advance (h : w.Stands demands answers s) :
    MatchedFrom s w.advance demands answers := by
  rw [Workshop.advance, Worker.next]
  cases hqueue : w.worker.queue with
  | nil => exact h.here
  | cons task tasks =>
    have htaken := Shift.leads_take h.idle (h.worker ▸ hqueue)
    rw [h.worker] at htaken
    cases task with
    | mark =>
      refine h.ran (htaken.trans (Shift.leads_finish rfl (.ok ()))) ?_ h.diary.mark
      intro entry hentry
      rcases List.mem_cons.mp hentry with rfl | hentry
      · exact ⟨rfl, rfl⟩
      · obtain rfl := List.mem_singleton.mp hentry
        exact ⟨rfl, rfl⟩
    | job job =>
      obtain ⟨entries, notes, hleads, hnotes, henacted⟩ :=
        leads_runJob (w := { w with worker := { w.worker with queue := tasks } })
          (s := { worker := _, running := _, log := s.log ++ [.began (.job job)] }) rfl rfl job
      rcases hran : runJob { w with worker := { w.worker with queue := tasks } } job with
        ⟨ending, v⟩
      rw [hran] at hleads hnotes henacted
      dsimp only
      rw [hran]
      have hdone := (htaken.trans hleads).trans (Shift.leads_finish rfl ending)
      refine h.ran (v := { v with worker := v.worker.count ending }) hdone ?_
        (hnotes ▸ h.diary.job henacted)
      intro entry hentry
      rcases List.mem_append.mp hentry with hentry | hentry
      · rcases List.mem_cons.mp hentry with rfl | hentry
        · exact ⟨rfl, rfl⟩
        · exact henacted.inside hentry
      · obtain rfl := List.mem_singleton.mp hentry
        exact ⟨rfl, rfl⟩

theorem Stands.advanceBy (h : w.Stands demands answers s) (n : Nat) :
    MatchedFrom s (w.advanceBy n) demands answers := by
  induction n generalizing w s with
  | zero => exact h.here
  | succ n ih => exact h.advance.trans fun hs => ih hs

theorem Stands.drain (h : w.Stands demands answers s) : MatchedFrom s w.drain demands answers :=
  h.advanceBy w.load

/-- What is demanded from outside is met by the worker, and noted by nobody. -/
theorem Stands.demand (h : w.Stands demands answers s) (demand : Worker.Demand (Work τ))
    (hworker : v.worker = (w.worker.meet false demand).2) (hnotes : v.notes = w.notes) :
    MatchedFrom s v (demands ++ [demand]) (answers ++ [(w.worker.meet false demand).1]) := by
  obtain ⟨acts, hrun⟩ := Shift.leads_demandOutside s demand
  rw [h.worker, ← hworker] at hrun
  refine ⟨acts, _, hrun, rfl, h.idle, ?_, ?_, ?_⟩
  · rw [Shift.filterMap_concat, h.demands]
    rfl
  · rw [Shift.filterMap_concat, h.answers]
    rfl
  · rw [hnotes]
    exact h.diary.demanded demand _

/-- Whoever flushes demands it, when the worker has come so far, and waits. -/
theorem Stands.flush (h : w.Stands demands answers s) (demand : Worker.Demand (Work τ))
    (hdemand : ∀ worker : Worker (Work τ), worker.meet false demand = worker.flush false) :
    MatchedFrom s w.flush.2 (demands ++ [demand]) (answers ++ [w.flush.1]) := by
  have hbefore : MatchedFrom s (if w.willShutDown then w.drain else w) demands answers := by
    split
    · exact h.drain
    · exact h.here
  rw [Workshop.flush]
  generalize (if w.willShutDown then w.drain else w) = before at hbefore ⊢
  refine hbefore.trans fun hs => ?_
  have hasked :=
    hs.demand (v := { before with worker := (before.worker.flush false).2 }) demand
  rw [hdemand] at hasked
  exact (hasked rfl rfl).trans fun hs => hs.drain

/-- Whoever gives up waiting has demanded the flush all the same. -/
theorem Stands.flushHeld (h : w.Stands demands answers s) :
    MatchedFrom s w.flushHeld.2 (demands ++ [.flushTimeout])
      (answers ++ [w.flushHeld.1.map fun _ => ()]) := by
  have hasked (v : Workshop τ) := h.demand (v := v) .flushTimeout
  rw [Worker.meet] at hasked
  rw [Workshop.flushHeld]
  split
  · next e worker hflush =>
    rw [hflush] at hasked
    exact hasked _ rfl rfl
  · next worker hflush =>
    rw [hflush] at hasked
    refine (hasked { w with worker } rfl rfl).trans fun hs => ?_
    dsimp only
    split
    · exact hs.drain
    · exact hs.here

/-- Whatever is ordered is demanded from outside. -/
theorem Stands.obey (h : w.Stands demands answers s) (order : Order τ) :
    MatchedFrom s (w.obey order).2 (demands ++ order.demand?.toList)
      (answers ++ (w.obey order).1.answers) := by
  cases order with
  | execute job => exact h.demand (.execute job) rfl rfl
  | flush => exact h.flush .flush fun _ => rfl
  | flushTimeout =>
    have hflushed := h.flush .flushTimeout fun _ => rfl
    rw [Workshop.obey, OrderAnswer.answers]
    cases hanswer : w.flush.1 with
    | error e =>
      rw [hanswer] at hflushed
      exact hflushed
    | ok _ =>
      rw [hanswer] at hflushed
      exact hflushed
  | flushHeld => exact h.flushHeld
  | shutDown =>
    exact (h.demand (v := { w with worker := w.worker.shutDown }) .shutDown rfl rfl).trans
      fun hs => hs.drain
  | info =>
    rw [Workshop.obey, OrderAnswer.answers, Order.demand?, Option.toList_none, List.append_nil,
      List.append_nil]
    exact h.here

/-- Whatever orders are obeyed, one by one. -/
theorem Stands.obeyAll (h : w.Stands demands answers s) (orders : List (Order τ)) :
    MatchedFrom s (w.obeyAll orders).2 (demands ++ orders.filterMap Order.demand?)
      (answers ++ (w.obeyAll orders).1.flatMap OrderAnswer.answers) := by
  induction orders generalizing w s demands answers with
  | nil =>
    rw [Workshop.obeyAll, List.filterMap_nil, List.flatMap_nil, List.append_nil, List.append_nil]
    exact h.here
  | cons order orders ih =>
    have hdemands : (order :: orders).filterMap Order.demand? =
        order.demand?.toList ++ orders.filterMap Order.demand? := by
      rw [List.filterMap_cons]
      cases order.demand? <;> rfl
    rw [Workshop.obeyAll, hdemands, List.flatMap_cons, ← List.append_assoc, ← List.append_assoc]
    exact (h.obey order).trans fun hs => ih hs

end Orders

end Workshop

namespace Shift

/-- A worker runs what it has accepted, each task once and in the order of acceptance, and nothing
else, whoever demands what and whenever, from inside or from outside.

The log tells the truth: tasks begin in the order of acceptance, those that have not begun are
queued, and what was answered is decided by who asks and whether a shutdown was demanded before. A
demand that is refused changes nothing, and after a shutdown nothing is accepted. From wherever it
has come, a worker that is left alone runs all that it has accepted, however its jobs end; then as
many tasks were executed as were accepted, and as many have panicked as ended in a panic.

Workshops are an instance: whatever orders one obeys, its worker has made such a shift. What was
demanded from outside are the orders, and they were answered as the log says. From its beginning to
its end a job did what it is, act by act, up to its first panic, and the notes are what the jobs
that have begun have noted. An order that waits for everything leaves nothing to do. -/
theorem runs_what_was_accepted (name : String) :
    (∀ (acts : List (ShiftAct J)) (s : Shift J), (ofName name).run acts = some s →
      s.Kept name ∧
      (∀ inside demand e, (s.worker.meet inside demand).1 = .error e →
        (s.worker.meet inside demand).2 = s.worker) ∧
      (s.log.any ShiftEntry.isShutDown = true →
        ∀ more s', s.run more = some s' → s'.accepted = s.accepted) ∧
      (∀ how : Task J → Except Panic Unit, ∃ more s', LeftAlone how more s s' ∧ s'.Kept name ∧
        s'.begun = s.accepted) ∧
      (s.Drained → s.begun = s.accepted ∧ s.worker.executed = s.accepted.length ∧
        s.worker.panicked = s.endings.countP isPanic)) ∧
    ∀ (orders : List (Order τ)) (answers : List OrderAnswer) (w : Workshop τ),
      ({ worker := { name } } : Workshop τ).obeyAll orders = (answers, w) →
      (∃ acts s, (ofName name).run acts = some s ∧ s.Kept name ∧
        w.Stands (orders.filterMap Order.demand?) (answers.flatMap OrderAnswer.answers) s) ∧
      (w.obey .flush).2.worker.queue = [] ∧ (w.obey .flushTimeout).2.worker.queue = [] ∧
      (w.obey .shutDown).2.worker.queue = [] := by
  refine ⟨fun acts s hrun => ?_, fun orders answers w hobeyed => ?_⟩
  · have hkept := (kept_ofName name).run hrun
    refine ⟨hkept, fun inside demand e herror => ?_, fun hshut more s' hmore => ?_,
      fun how => ?_, fun hdrained => ?_⟩
    · rcases meet_cases inside s.worker demand with ⟨task, -, ⟨e, hmeet⟩ | hmeet⟩ | rfl
      · rw [hmeet]
      · rw [hmeet] at herror
        cases herror
      · cases herror
    · refine accepted_of_not_accepting ?_ hmore
      rw [hkept.accepting, hshut, Bool.not_true]
    · obtain ⟨more, s', hleft⟩ := exists_leftAlone how s
      have hkept' := hkept.run hleft.run
      refine ⟨more, s', hleft, hkept', ?_⟩
      rw [← hleft.accepted, hkept'.order, hleft.drained.queue, List.append_nil]
    · have hbegun : s.begun = s.accepted := by
        rw [hkept.order, hdrained.queue, List.append_nil]
      refine ⟨hbegun, ?_, hkept.panicked⟩
      rw [hkept.executed, ← hbegun, hkept.running, hdrained.running]
      rfl
  · have hnew : ({ worker := { name } } : Workshop τ).Stands [] [] (ofName name) :=
      ⟨rfl, rfl, rfl, rfl, .blank⟩
    have hall := hnew.obeyAll orders
    rw [hobeyed] at hall
    obtain ⟨acts, s, hrun, hs⟩ := hall
    exact ⟨⟨acts, s, hrun, (kept_ofName name).run hrun, hs⟩, Workshop.queue_drain _,
      Workshop.queue_drain _, Workshop.queue_drain _⟩

/-- A job that queues another one, shuts its worker down and panics. Whatever is demanded after the
shutdown is refused, but the job that was queued before still runs. -/
def nightShift : List (ShiftAct Nat) :=
  [.demand false (.execute 1), .take, .demand true (.execute 2), .demand true .flush,
    .demand true .shutDown, .demand true (.execute 3), .demand false (.execute 4),
    .demand false .flush, .finish (.error ⟨"overtired"⟩), .take, .demand true .flushTimeout,
    .finish (.ok ())]

/-- Orders to the same effect: the job that panics is waited for. -/
def nightOrders : List (Order Nat) :=
  [.execute [.note 1, .queue 2 [.note 3], .flush, .shutDown, .queue 4 [.note 5],
    .panic ⟨"overtired"⟩, .note 6], .flushTimeout, .execute [.note 7]]

theorem nightShift_drained :
    (∃ s, (ofName "night").run nightShift = some s ∧ s.Kept "night" ∧ s.Drained ∧
      s.accepted = [.job 1, .job 2] ∧ s.begun = s.accepted ∧
      s.worker.executed = s.accepted.length ∧ s.worker.panicked = 1) ∧
    ∃ answers w, ({ worker := { name := "night" } } : Workshop Nat).obeyAll nightOrders =
        (answers, w) ∧
      ∃ acts s, (ofName "night").run acts = some s ∧ s.Kept "night" ∧
        w.Stands (nightOrders.filterMap Order.demand?) (answers.flatMap OrderAnswer.answers) s ∧
        s.begun = s.accepted ∧ s.worker.executed = 2 ∧ s.worker.panicked = 1 ∧
        w.notes = [.tag 1, .queued 2 (.ok ()),
          .flushed (.error (.invalidState "cannot flush night from its own thread"))
            (.error (.invalidState "cannot flush night from its own thread")),
          .queued 4 (.error (.dispatchFailure "context night is shut down")), .tag 3] := by
  constructor
  · obtain ⟨hkept, -, -, -, hend⟩ := (@runs_what_was_accepted Unit Nat "night").1 nightShift _ rfl
    obtain ⟨hbegun, hexecuted, hpanicked⟩ := hend ⟨rfl, rfl⟩
    exact ⟨_, rfl, hkept, ⟨rfl, rfl⟩, rfl, hbegun, hexecuted, hpanicked⟩
  · obtain ⟨⟨acts, s, hrun, hkept, hstands⟩, -⟩ :=
      (@runs_what_was_accepted Nat Nat "night").2 nightOrders _ _ rfl
    refine ⟨_, _, rfl, acts, s, hrun, hkept, hstands, ?_, ?_, ?_, rfl⟩
    · rw [hkept.order, hstands.worker]
      exact (List.append_nil _).symm
    · rw [hstands.worker]
      rfl
    · rw [hstands.worker]
      rfl

end Shift
end Switchboard
