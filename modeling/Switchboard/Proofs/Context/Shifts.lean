import Switchboard.Context.Orders
/-!
# Shifts of a worker

Jobs, flushes and the shutdown of a worker are demanded by anybody at any time, by the job that the
worker runs or from elsewhere, while the worker takes its tasks and ends them. A log is kept of what
was demanded and answered, and of what began and ended. In what order all this happens is left open,
and so is what jobs are and how they end.

A worker runs what it has accepted, each task once and in the order of acceptance, and nothing else.
A panic ends a job like anything else does. A shutdown ends the intake for good and loses nothing.
-/
namespace Switchboard

namespace Worker

variable {J : Type}

/-- What is demanded of a worker. -/
inductive Demand (J : Type) where
  | execute (job : J)
  | flush
  /-- a flush that may be given up while it waits -/
  | flushTimeout
  | shutDown

/-- The task that comes of a demand. -/
def Demand.task? : Demand J → Option (Task J)
  | execute job => some (.job job)
  | flush | flushTimeout => some .mark
  | shutDown => none

/-- What a demand is answered by a worker of a given name: flushes from inside are senseless, and
after a shutdown nothing is taken any more. -/
def Demand.answer (name : String) (shut inside : Bool) : Demand J → Except Fault Unit
  | execute _ =>
    if shut then .error (.dispatchFailure ("context " ++ name ++ " is shut down")) else .ok ()
  | flush | flushTimeout =>
    if inside then .error (.invalidState ("cannot flush " ++ name ++ " from its own thread"))
    else if shut then .error (.dispatchFailure ("context " ++ name ++ " is shut down"))
    else .ok ()
  | shutDown => .ok ()

/-- Meets a demand from a job of the worker itself (`inside`) or from elsewhere. -/
def meet (inside : Bool) (w : Worker J) : Demand J → Except Fault Unit × Worker J
  | .execute job => w.execute job
  | .flush | .flushTimeout => w.flush inside
  | .shutDown => (.ok (), w.shutDown)

end Worker

/-- What is logged of a worker. -/
inductive ShiftEntry (J : Type) where
  | demanded (inside : Bool) (demand : Worker.Demand J) (answer : Except Fault Unit)
  | began (task : Task J)
  | ended (ending : Except Panic Unit)

namespace ShiftEntry

variable {J : Type}

/-- The task that was accepted. -/
def accepted? : ShiftEntry J → Option (Task J)
  | demanded _ demand (.ok ()) => demand.task?
  | demanded _ _ (.error _) | began _ | ended _ => none

/-- The task that began. -/
def begun? : ShiftEntry J → Option (Task J)
  | began task => some task
  | demanded .. | ended _ => none

/-- How a task ended. -/
def ending? : ShiftEntry J → Option (Except Panic Unit)
  | ended ending => some ending
  | demanded .. | began _ => none

/-- Whether a shutdown was demanded. -/
def isShutDown : ShiftEntry J → Bool
  | demanded _ .shutDown _ => true
  | demanded .. | began _ | ended _ => false

end ShiftEntry

/-- Whether a task ended in a panic. -/
def isPanic : Except Panic Unit → Bool
  | .ok () => false
  | .error _ => true

/-- A worker, the task that it is running, and the log. -/
structure Shift (J : Type) where
  worker : Worker J
  running : Option (Task J) := none
  log : List (ShiftEntry J) := []

/-- What happens at a worker. Only a running job demands something from inside. -/
inductive ShiftAct (J : Type) where
  | demand (inside : Bool) (demand : Worker.Demand J)
  | take
  | finish (ending : Except Panic Unit)

/-- Whether an act is the worker's own. -/
def ShiftAct.isOwn {J : Type} : ShiftAct J → Bool
  | demand .. => false
  | take | finish _ => true

namespace Shift

variable {J : Type}

/-- A new worker. -/
def ofName (name : String) : Shift J := { worker := { name } }

/-- What becomes of a shift by an act, if that is possible. -/
def perform (s : Shift J) : ShiftAct J → Option (Shift J)
  | .demand inside demand =>
    if inside = true ∧ s.running.isNone then none
    else some { s with
      worker := (s.worker.meet inside demand).2
      log := s.log ++ [.demanded inside demand (s.worker.meet inside demand).1] }
  | .take =>
    match s.running, s.worker.next with
    | none, (some task, worker) =>
      some { worker, running := some task, log := s.log ++ [.began task] }
    | none, (none, _) | some _, _ => none
  | .finish ending =>
    s.running.map fun _ =>
      { worker := s.worker.count ending, running := none, log := s.log ++ [.ended ending] }

/-- What becomes of a shift by acts that follow each other. -/
def run (s : Shift J) : List (ShiftAct J) → Option (Shift J)
  | [] => some s
  | act :: acts => (s.perform act).bind fun s => s.run acts

/-- The tasks that were accepted, oldest first. -/
def accepted (s : Shift J) : List (Task J) := s.log.filterMap ShiftEntry.accepted?

/-- The tasks that have begun, oldest first. -/
def begun (s : Shift J) : List (Task J) := s.log.filterMap ShiftEntry.begun?

/-- How tasks have ended, oldest first. -/
def endings (s : Shift J) : List (Except Panic Unit) := s.log.filterMap ShiftEntry.ending?

/-- Whether nothing is left to do. -/
structure Drained (s : Shift J) : Prop where
  running : s.running = none
  queue : s.worker.queue = []

/-- The log tells the truth about the worker. -/
structure Kept (name : String) (s : Shift J) : Prop where
  named : s.worker.name = name
  /-- tasks begin in the order in which they were accepted, and those that have not are queued -/
  order : s.accepted = s.begun ++ s.worker.queue
  /-- tasks run one at a time -/
  running : s.begun.length = s.endings.length + s.running.toList.length
  executed : s.worker.executed = s.endings.length
  panicked : s.worker.panicked = s.endings.countP isPanic
  accepting : s.worker.accepting = !s.log.any ShiftEntry.isShutDown
  /-- an answer depends on who asks and on whether a shutdown was demanded before -/
  answers : ∀ (n : Nat) (inside : Bool) (demand : Worker.Demand J) (answer : Except Fault Unit),
    s.log[n]? = some (.demanded inside demand answer) →
      answer = demand.answer name ((s.log.take n).any ShiftEntry.isShutDown) inside

section Demands

variable (inside : Bool) (w : Worker J) (demand : Worker.Demand J)

theorem fst_meet : (w.meet inside demand).1 = demand.answer w.name (!w.accepting) inside := by
  cases demand with
  | shutDown => rfl
  | execute job =>
    rw [Worker.meet, Worker.execute, Worker.accept, Worker.Demand.answer]
    cases w.accepting <;> rfl
  | flush | flushTimeout =>
    rw [Worker.meet, Worker.flush, Worker.accept, Worker.Demand.answer]
    cases inside <;> cases w.accepting <;> rfl

theorem accept_cases (task : Task J) :
    (∃ e, w.accept task = (.error e, w)) ∨
      w.accept task = (.ok (), { w with queue := w.queue ++ [task] }) := by
  rw [Worker.accept]
  split
  · exact Or.inr rfl
  · exact Or.inl ⟨_, rfl⟩

/-- A demand for a task is refused and changes nothing, or the task is queued behind the others. All
else is a shutdown. -/
theorem meet_cases :
    (∃ task, demand.task? = some task ∧ ((∃ e, w.meet inside demand = (.error e, w)) ∨
        w.meet inside demand = (.ok (), { w with queue := w.queue ++ [task] }))) ∨
      demand = .shutDown := by
  have hflush : (∃ e, w.flush inside = (.error e, w)) ∨
      w.flush inside = (.ok (), { w with queue := w.queue ++ [.mark] }) := by
    rw [Worker.flush]
    split
    · exact Or.inl ⟨_, rfl⟩
    · exact accept_cases w .mark
  cases demand with
  | execute job => exact Or.inl ⟨.job job, rfl, accept_cases w (.job job)⟩
  | flush => exact Or.inl ⟨.mark, rfl, hflush⟩
  | flushTimeout => exact Or.inl ⟨.mark, rfl, hflush⟩
  | shutDown => exact Or.inr rfl

/-- A demand for a task is no shutdown. -/
theorem isShutDown_of_task {demand : Worker.Demand J} {task : Task J}
    (h : demand.task? = some task) (inside : Bool) (answer : Except Fault Unit) :
    (ShiftEntry.demanded inside demand answer).isShutDown = false := by
  cases demand with
  | shutDown => cases h
  | execute job => rfl
  | flush => rfl
  | flushTimeout => rfl

end Demands

section Logs

variable {name : String} {s s' : Shift J}

theorem kept_ofName (name : String) : Kept name (ofName name : Shift J) :=
  ⟨rfl, rfl, rfl, rfl, rfl, rfl, nofun⟩

theorem filterMap_concat {α β : Type} (f : α → Option β) (l : List α) (a : α) :
    (l ++ [a]).filterMap f = l.filterMap f ++ (f a).toList := by
  rw [List.filterMap_append]
  cases h : f a <;> simp [h]

/-- An entry is added to the log, and the worker has done what the entry says. -/
theorem Kept.note (h : s.Kept name) {entry : ShiftEntry J} {worker : Worker J}
    {running : Option (Task J)} (hnamed : worker.name = s.worker.name)
    (hqueue : s.worker.queue ++ entry.accepted?.toList = entry.begun?.toList ++ worker.queue)
    (hrunning : running.toList.length + entry.ending?.toList.length =
      s.running.toList.length + entry.begun?.toList.length)
    (hexecuted : worker.executed = s.worker.executed + entry.ending?.toList.length)
    (hpanicked : worker.panicked = s.worker.panicked + entry.ending?.toList.countP isPanic)
    (haccepting : worker.accepting = (s.worker.accepting && !entry.isShutDown))
    (hanswer : ∀ (inside : Bool) (demand : Worker.Demand J) (answer : Except Fault Unit),
      entry = .demanded inside demand answer →
        answer = demand.answer name (s.log.any ShiftEntry.isShutDown) inside) :
    Kept name { worker, running, log := s.log ++ [entry] } where
  named := hnamed.trans h.named
  order := by
    have horder := h.order
    rw [accepted, begun] at horder ⊢
    rw [filterMap_concat, filterMap_concat, horder, List.append_assoc, hqueue, List.append_assoc]
  running := by
    have hlengths := h.running
    rw [begun, endings] at hlengths ⊢
    rw [filterMap_concat, filterMap_concat, List.length_append, List.length_append]
    dsimp only
    omega
  executed := by
    rw [hexecuted, h.executed, endings, endings, filterMap_concat, List.length_append]
  panicked := by
    rw [hpanicked, h.panicked, endings, endings, filterMap_concat, List.countP_append]
  accepting := by
    rw [haccepting, h.accepting, List.any_append, List.any_cons, List.any_nil, Bool.or_false,
      Bool.not_or]
  answers n inside demand answer hn := by
    rcases Nat.lt_trichotomy n s.log.length with hlt | rfl | hgt
    · rw [List.getElem?_append_left hlt] at hn
      rw [List.take_append_of_le_length (Nat.le_of_lt hlt)]
      exact h.answers n inside demand answer hn
    · rw [List.getElem?_concat_length, Option.some.injEq] at hn
      rw [List.take_left]
      exact hanswer inside demand answer hn
    · rw [List.getElem?_eq_none (by rw [List.length_append]; exact hgt)] at hn
      cases hn

theorem Kept.demand (h : s.Kept name) (inside : Bool) (demand : Worker.Demand J) :
    Kept name { s with
      worker := (s.worker.meet inside demand).2
      log := s.log ++ [.demanded inside demand (s.worker.meet inside demand).1] } := by
  have hanswer : (s.worker.meet inside demand).1 =
      demand.answer name (s.log.any ShiftEntry.isShutDown) inside := by
    rw [fst_meet, h.named, h.accepting, Bool.not_not]
  rcases meet_cases inside s.worker demand with ⟨task, htask, ⟨e, hmeet⟩ | hmeet⟩ | rfl
  · rw [hmeet] at hanswer ⊢
    refine h.note rfl (List.append_nil _) rfl rfl rfl ?_ ?_
    · rw [isShutDown_of_task htask]
      exact (Bool.and_true _).symm
    · rintro _ _ _ ⟨⟩
      exact hanswer
  · rw [hmeet] at hanswer ⊢
    refine h.note rfl ?_ rfl rfl rfl ?_ ?_
    · rw [ShiftEntry.accepted?, htask]
      rfl
    · rw [isShutDown_of_task htask]
      exact (Bool.and_true _).symm
    · rintro _ _ _ ⟨⟩
      exact hanswer
  · refine h.note rfl (List.append_nil _) rfl rfl rfl (Bool.and_false _).symm ?_
    rintro _ _ _ ⟨⟩
    exact hanswer

/-- Only an idle worker takes a task. -/
theorem take_eq_some (h : s.perform .take = some s') :
    s.running = none ∧ ∃ task tasks, s.worker.queue = task :: tasks ∧
      s' = { worker := { s.worker with queue := tasks }, running := some task
             log := s.log ++ [.began task] } := by
  rw [perform, Worker.next] at h
  cases hidle : s.running with
  | some task => simp [hidle] at h
  | none =>
    cases hqueue : s.worker.queue with
    | nil => simp [hidle, hqueue] at h
    | cons task tasks =>
      simp only [hidle, hqueue, Option.some.injEq] at h
      exact ⟨rfl, task, tasks, rfl, h.symm⟩

/-- One act. -/
theorem Kept.perform (h : s.Kept name) {act : ShiftAct J} (hact : s.perform act = some s') :
    s'.Kept name := by
  cases act with
  | demand inside demand =>
    rw [Shift.perform] at hact
    split at hact
    · cases hact
    · cases hact
      exact h.demand inside demand
  | take =>
    obtain ⟨hidle, task, tasks, hqueue, rfl⟩ := take_eq_some hact
    refine h.note rfl ?_ ?_ rfl rfl (Bool.and_true _).symm nofun
    · rw [hqueue]
      exact List.append_nil _
    · rw [hidle]
      rfl
  | finish ending =>
    obtain ⟨task, hrunning, rfl⟩ := Option.map_eq_some_iff.mp hact
    refine h.note ?_ ?_ ?_ ?_ ?_ ?_ nofun
    · cases ending <;> rfl
    · rw [Worker.queue_count]
      exact List.append_nil _
    · rw [hrunning]
      rfl
    · cases ending <;> rfl
    · cases ending <;> rfl
    · rw [Worker.accepting_count]
      exact (Bool.and_true _).symm

/-- All acts, one by one. -/
theorem Kept.run (h : s.Kept name) {acts : List (ShiftAct J)} (hrun : s.run acts = some s') :
    s'.Kept name := by
  induction acts generalizing s with
  | nil =>
    cases hrun
    exact h
  | cons act acts ih =>
    obtain ⟨next, hact, hrest⟩ := Option.bind_eq_some_iff.mp hrun
    exact ih (h.perform hact) hrest

end Logs

section Progress

variable {s s' s'' : Shift J}

theorem run_trans {acts more : List (ShiftAct J)} (hrun : s.run acts = some s')
    (hmore : s'.run more = some s'') : s.run (acts ++ more) = some s'' := by
  induction acts generalizing s with
  | nil =>
    cases hrun
    exact hmore
  | cons act acts ih =>
    obtain ⟨next, hact, hrest⟩ := Option.bind_eq_some_iff.mp hrun
    exact Option.bind_eq_some_iff.mpr ⟨next, hact, ih hrest⟩

theorem run_singleton {act : ShiftAct J} (h : s.perform act = some s') : s.run [act] = some s' :=
  Option.bind_eq_some_iff.mpr ⟨s', h, rfl⟩

/-- A worker that is left alone comes to an end by acts of its own. It accepts nothing meanwhile, and
its tasks end as they end. -/
structure LeftAlone (how : Task J → Except Panic Unit) (acts : List (ShiftAct J)) (s s' : Shift J) :
    Prop where
  run : s.run acts = some s'
  own : ∀ act ∈ acts, act.isOwn = true
  drained : s'.Drained
  accepted : s'.accepted = s.accepted
  endings : s'.endings = s.endings ++ (s.running.toList ++ s.worker.queue).map how

/-- An idle worker runs all its tasks. -/
theorem exists_leftAlone_of_idle (how : Task J → Except Panic Unit) (hidle : s.running = none) :
    ∃ acts s', LeftAlone how acts s s' := by
  obtain ⟨worker, running, log⟩ := s
  obtain rfl : running = none := hidle
  obtain ⟨name, queue, accepting, executed, panicked⟩ := worker
  induction queue generalizing executed panicked log with
  | nil => exact ⟨[], _, rfl, nofun, ⟨rfl, rfl⟩, rfl, (List.append_nil _).symm⟩
  | cons task tasks ih =>
    have hworker : Worker.count (how task) { name, queue := tasks, accepting, executed, panicked } =
        { name, queue := tasks, accepting, executed := executed + 1
          panicked := panicked + if isPanic (how task) then 1 else 0 } := by
      cases how task <;> rfl
    obtain ⟨acts, s', hleft⟩ := ih (log ++ [.began task] ++ [.ended (how task)]) (executed + 1)
      (panicked + if isPanic (how task) then 1 else 0)
    refine ⟨.take :: .finish (how task) :: acts, s', ?_, ?_, hleft.drained, ?_, ?_⟩
    · have hrest := hleft.run
      rw [← hworker] at hrest
      exact hrest
    · intro act hact
      rcases List.mem_cons.mp hact with rfl | hact
      · rfl
      · rcases List.mem_cons.mp hact with rfl | hact
        · rfl
        · exact hleft.own act hact
    · rw [hleft.accepted, accepted, accepted, filterMap_concat, filterMap_concat]
      exact (List.append_nil _).trans (List.append_nil _)
    · rw [hleft.endings, endings, endings, filterMap_concat, filterMap_concat]
      simp [ShiftEntry.ending?]

/-- Whatever a worker has accepted, it runs when it is left alone, however its jobs end. -/
theorem exists_leftAlone (how : Task J → Except Panic Unit) (s : Shift J) :
    ∃ acts s', LeftAlone how acts s s' := by
  cases hrunning : s.running with
  | none => exact exists_leftAlone_of_idle how hrunning
  | some task =>
    have hact : s.perform (.finish (how task)) = some
        { worker := s.worker.count (how task), running := none
          log := s.log ++ [.ended (how task)] } := by
      rw [perform, hrunning]
      rfl
    obtain ⟨acts, s', hleft⟩ := exists_leftAlone_of_idle how (s := { worker := _, log := _ }) rfl
    refine ⟨.finish (how task) :: acts, s', run_trans (run_singleton hact) hleft.run, ?_,
      hleft.drained, ?_, ?_⟩
    · intro act hmem
      rcases List.mem_cons.mp hmem with rfl | hmem
      · rfl
      · exact hleft.own act hmem
    · rw [hleft.accepted, accepted, accepted, filterMap_concat]
      exact List.append_nil _
    · rw [hleft.endings, endings, endings, filterMap_concat, Worker.queue_count, hrunning]
      simp [ShiftEntry.ending?]

/-- A worker that was shut down accepts nothing. -/
theorem meet_of_not_accepting {w : Worker J} (h : w.accepting = false) (inside : Bool)
    (demand : Worker.Demand J) :
    (ShiftEntry.demanded inside demand (w.meet inside demand).1).accepted? = none ∧
      (w.meet inside demand).2.accepting = false := by
  constructor
  · rw [fst_meet, h]
    cases demand with
    | execute job => rfl
    | shutDown => rfl
    | flush | flushTimeout => cases inside <;> rfl
  · rcases meet_cases inside w demand with ⟨task, -, ⟨e, hmeet⟩ | hmeet⟩ | rfl
    · rw [hmeet]
      exact h
    · rw [hmeet]
      exact h
    · rfl

theorem accepted_perform_of_not_accepting (h : s.worker.accepting = false) {act : ShiftAct J}
    (hact : s.perform act = some s') :
    s'.accepted = s.accepted ∧ s'.worker.accepting = false := by
  have hlog {entry : ShiftEntry J} (hnone : entry.accepted? = none) :
      (s.log ++ [entry]).filterMap ShiftEntry.accepted? = s.accepted := by
    rw [filterMap_concat, hnone]
    exact List.append_nil _
  cases act with
  | demand inside demand =>
    obtain ⟨hnone, hshut⟩ := meet_of_not_accepting h inside demand
    rw [perform] at hact
    split at hact
    · cases hact
    · cases hact
      exact ⟨hlog hnone, hshut⟩
  | take =>
    obtain ⟨-, task, tasks, -, rfl⟩ := take_eq_some hact
    exact ⟨hlog rfl, h⟩
  | finish ending =>
    obtain ⟨task, -, rfl⟩ := Option.map_eq_some_iff.mp hact
    exact ⟨hlog rfl, (Worker.accepting_count _ _).trans h⟩

/-- After a shutdown nothing is accepted any more. -/
theorem accepted_of_not_accepting (h : s.worker.accepting = false) {acts : List (ShiftAct J)}
    (hrun : s.run acts = some s') : s'.accepted = s.accepted := by
  induction acts generalizing s with
  | nil =>
    cases hrun
    rfl
  | cons act acts ih =>
    obtain ⟨next, hact, hrest⟩ := Option.bind_eq_some_iff.mp hrun
    obtain ⟨haccepted, hshut⟩ := accepted_perform_of_not_accepting h hact
    exact (ih hshut hrest).trans haccepted

end Progress

end Shift
end Switchboard
