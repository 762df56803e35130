import Switchboard.Proofs.Foreign.Hosts
import Switchboard.Proofs.Foreign.Turns
/-!
# Who waits with a callback

Whoever has a callback waits as a handler for the outcome of a command, or as a completion in a
queue. Programs of the tester's own queue nothing for callbacks. Only a send of a host makes
somebody wait with a callback, and then it is the one that the host has given.
-/
namespace Switchboard.App

/-- A program queues no tasks but those that are allowed. -/
def QueuesOnly (allowed : Task Job → Prop) (α : Type) (p : Program α) : Prop :=
  ∀ (a : App) (side : Side), ∀ task ∈ ((p.run a).2.worker side).queue,
    task ∈ (a.worker side).queue ∨ allowed task

/-- What is no completion for a callback may be queued. -/
def AllowsOwn (allowed : Task Job → Prop) : Prop :=
  ∀ task : Task Job, task.map Job.typed = task → allowed task

/-- What a send for a listener on a boundary may queue: its completion, and whatever is no
completion for a callback. -/
def SentFor (i : Nat) (listener : Option (Handle × Callback)) (task : Task Job) : Prop :=
  task.map Job.typed = task ∨
    ∃ handle callback, listener = some (handle, callback) ∧
      task = .job (.completion (.foreign i handle callback))

/-- Somebody waits with a callback at a boundary: a handler for the outcome of a command, or a
completion in a queue. -/
def Expects (a : App) (i : Nat) (handle : Handle) (callback : Callback) : Prop :=
  (∃ k, a.Hears k i (some (handle, callback))) ∨
    ∃ side, .job (.completion (.foreign i handle callback)) ∈ (a.worker side).queue

/-- Whoever waits with a callback in the second application waited in the first, but for one
listener. -/
def ExpectsOnly (a a' : App) (i : Nat) (listener : Option (Handle × Callback)) : Prop :=
  ∀ j handle callback, a'.Expects j handle callback →
    a.Expects j handle callback ∨ j = i ∧ listener = some (handle, callback)

section Queues

variable {allowed : Task Job → Prop} {α : Type}

theorem composes_queuesOnly : Composes (QueuesOnly allowed) where
  pure _ _ _ _ h := Or.inl h
  bind hp hf a side task htask :=
    (hf _ _ side task htask).elim (hp a side task) Or.inr

theorem queuesOnly_of_same {p : Program α} (h : ∀ a side, (p.run a).2.worker side = a.worker side) :
    QueuesOnly allowed α p := fun a side _ htask => Or.inl (h a side ▸ htask)

/-- What is done to a worker. -/
theorem queuesOnly_worker_step (side : Side) {f : Worker Job → α × Worker Job}
    (hf : ∀ w, ∀ task ∈ (f w).2.queue, task ∈ w.queue ∨ allowed task) :
    QueuesOnly allowed α ((Program.worker side).step f) := by
  intro a other task htask
  change task ∈ ((a.setWorker side (f (a.worker side)).2).worker other).queue at htask
  rw [worker_setWorker] at htask
  split at htask
  · subst other
    exact hf _ task htask
  · exact Or.inl htask

theorem queuesOnly_accept (side : Side) {task : Task Job} (h : allowed task) :
    QueuesOnly allowed _ ((Program.worker side).step (·.accept task)) := by
  refine queuesOnly_worker_step side fun w task' htask => ?_
  rw [Worker.accept] at htask
  split at htask
  · rcases List.mem_append.mp htask with hold | hnew
    · exact Or.inl hold
    · exact Or.inr (List.mem_singleton.mp hnew ▸ h)
  · exact Or.inl htask

theorem queuesOnly_submit (hown : AllowsOwn allowed) (d : Delivery Nat Side) :
    QueuesOnly allowed _ (Program.submit d) := by
  apply composes_queuesOnly.bind (queuesOnly_accept d.executor (hown (taskOf d) rfl))
  intro answer
  cases answer with
  | ok _ => exact composes_queuesOnly.pure _
  | error e =>
    have hcell : QueuesOnly allowed _ (Program.cell d.continuation).get :=
      queuesOnly_of_same fun _ _ => rfl
    refine composes_queuesOnly.bind hcell fun c => ?_
    split
    · exact queuesOnly_of_same fun _ _ => rfl
    · exact composes_queuesOnly.pure _

theorem queuesOnly_onTable (hown : AllowsOwn allowed)
    (op : PendingTable Nat Side → α × List (Delivery Nat Side) × PendingTable Nat Side) :
    QueuesOnly allowed _ (Program.fabric.onTable op) := by
  refine composes_queuesOnly.bind (queuesOnly_of_same fun _ _ => rfl) fun (answer, deliveries) => ?_
  exact composes_queuesOnly.bind
    (composes_queuesOnly.forM (queuesOnly_submit hown) deliveries) fun _ =>
      composes_queuesOnly.pure _

theorem fits_queuesOnly (hown : AllowsOwn allowed) :
    Composes.Fits (QueuesOnly allowed) Program.fabric where
  get := queuesOnly_of_same fun _ _ => rfl
  complete id result := queuesOnly_onTable hown (·.complete id result)
  fail id fault := queuesOnly_onTable hown (·.fail id fault)
  forward side msg := by
    change QueuesOnly allowed _ (Program.forward side msg)
    unfold Program.forward
    split
    · exact composes_queuesOnly.pure _
    · exact queuesOnly_accept side (hown _ rfl)

theorem queuesOnly_tearDown (hown : AllowsOwn allowed) (reason : String) :
    QueuesOnly allowed _ (Program.tearDown reason) :=
  composes_queuesOnly.bind (queuesOnly_of_same fun _ _ => rfl) fun _ =>
    queuesOnly_onTable hown (·.cancelAll reason)

theorem queuesOnly_during {p : Program α} (hp : QueuesOnly allowed α p) :
    QueuesOnly allowed α (PermitPool.during Program.pool p) :=
  composes_queuesOnly.bind (queuesOnly_of_same fun _ _ => rfl) fun _ =>
    composes_queuesOnly.bind hp fun _ =>
      composes_queuesOnly.bind (queuesOnly_of_same fun _ _ => rfl) fun _ =>
        composes_queuesOnly.pure _

/-- Whoever sends a command, its handler is in no queue. -/
theorem queuesOnly_sendCmd (hown : AllowsOwn allowed) (handler : Handler) (cmd : Cmd)
    (streaming : Bool) : QueuesOnly allowed _ (Program.sendCmd handler cmd streaming) := by
  have hK := @composes_queuesOnly allowed
  have hthrough (p : Outlet Side) (k : Nat) :
      QueuesOnly allowed _ (p.sendCmd Program.fabric cmd k streaming) :=
    hK.sendCmd (fits_queuesOnly hown) p cmd (queuesOnly_of_same fun _ _ => rfl)
  have hnew : QueuesOnly allowed _ (Program.newCell handler) := queuesOnly_of_same fun _ _ => rfl
  refine hK.bind hnew fun k => ?_
  have hfrom : QueuesOnly allowed _ (Program.sendCmdFrom handler.side k cmd streaming) := by
    refine hK.bind (queuesOnly_of_same fun _ _ => rfl) fun a => ?_
    cases handler.side with
    | engine => exact hthrough _ k
    | tester =>
      refine hK.bind (queuesOnly_during (hthrough _ k)) fun answer => ?_
      cases answer with
      | ok id => exact hK.bind (queuesOnly_of_same fun _ _ => rfl) fun _ => hK.pure _
      | error e => exact hK.pure _
  refine hK.bind hfrom fun answer => ?_
  cases answer with
  | ok id => exact hK.bind (queuesOnly_of_same fun _ _ => rfl) fun _ => hK.pure _
  | error e => exact hK.pure _

/-- An operation queues at most its own completion. -/
theorem Operation.queuesOnly (hown : AllowsOwn allowed) (op : Operation)
    (hcomplete : ∀ completion, op = .complete completion →
      allowed (.job (.completion completion))) : QueuesOnly allowed _ op.perform := by
  have hK := @composes_queuesOnly allowed
  cases op with
  | sendCmd handler cmd streaming => exact queuesOnly_sendCmd hown handler cmd streaming
  | send p msg => exact hK.send (fits_queuesOnly hown).toReaches p msg
  | returnResult result => exact hK.returnResult (fits_queuesOnly hown).complete result
  | complete completion => exact queuesOnly_accept .tester (hcomplete completion rfl)
  | await => exact queuesOnly_accept .tester (hown .mark rfl)
  | acknowledge callback => exact queuesOnly_of_same fun _ _ => rfl
  | stop =>
    have hlifecycle {α : Type} (f : Lifecycle → α × Lifecycle) :
        QueuesOnly allowed α (Program.lifecycle.step f) := queuesOnly_of_same fun _ _ => rfl
    exact hK.beginStop hlifecycle (hK.bind (queuesOnly_tearDown hown _) fun _ => hK.pure _)

/-- What is done in place of foreign listeners queues nothing for callbacks. -/
theorem Mimics.queuesOnly {nobody : String} {p p' : Program α} (h : Mimics nobody p p')
    (hown : AllowsOwn allowed) : QueuesOnly allowed α p' := by
  have hK := @composes_queuesOnly allowed
  induction h with
  | pure x => exact hK.pure x
  | bind hp hf ihp ihf => exact hK.bind ihp ihf
  | consult hf hblind ih => exact hK.bind (queuesOnly_of_same fun _ _ => rfl) ih
  | note hf =>
    refine queuesOnly_of_same fun a side => ?_
    have hnotes := (hf.noted a).notes
    exact (congrArg (App.worker · side) hnotes).trans (by cases side <;> rfl)
  | emit side event =>
    refine queuesOnly_of_same fun a other => ?_
    cases side <;> cases other <;> rfl
  | complete completion =>
    refine Operation.queuesOnly hown _ fun other hother => ?_
    cases hother
    cases completion with
    | foreign i handle callback => exact hown _ rfl
    | scripted ack => exact hown _ rfl
    | promise i => exact hown _ rfl
  | perform op hop =>
    refine Operation.queuesOnly hown op fun completion hcompletion => ?_
    subst hcompletion
    have htyped : completion.typed = completion := hop
    exact hown _ (congrArg (fun c => Task.job (Job.completion c)) htyped)

/-- A call that succeeds queues its completion besides. -/
theorem queuesOnly_counted {call : Program (Except Fault Unit)}
    (hcall : QueuesOnly allowed _ call) (f : Counters → Counters) {completion : Option Completion}
    (hcompletion : ∀ c, completion = some c → allowed (.job (.completion c))) :
    QueuesOnly allowed _ (Program.counted call f completion) := by
  have hK := @composes_queuesOnly allowed
  refine hK.bind (queuesOnly_during hcall) fun answer => ?_
  cases answer with
  | error e => exact hK.pure _
  | ok _ =>
    refine hK.bind (queuesOnly_of_same fun _ _ => rfl) fun _ => ?_
    cases completion with
    | none => exact hK.pure _
    | some c =>
      refine hK.bind (hK.bind ?_ fun answer => ?_) fun _ => hK.pure _
      · exact queuesOnly_accept .tester (hcompletion c rfl)
      · cases answer with
        | ok _ => exact hK.pure _
        | error e =>
          cases c with
          | promise i => exact queuesOnly_of_same fun _ _ => rfl
          | scripted ack => exact hK.pure _
          | foreign i handle callback => exact hK.pure _

end Queues

section Turns

variable {allowed : Task Job → Prop}

/-- A host that is told something queues nothing. -/
theorem queuesOnly_callBack (callback : Callback) (status : Status) (result : Option Handle) :
    QueuesOnly allowed _ (Program.callBack callback status result) :=
  composes_queuesOnly.bind (queuesOnly_of_same fun _ side => by cases side <;> rfl) fun _ =>
    composes_queuesOnly.pure _

theorem queuesOnly_boundary_step {α : Type} (i : Nat) (f : Boundary → α × Boundary) :
    QueuesOnly allowed α ((Program.boundary i).step f) := queuesOnly_of_same fun _ _ => rfl

theorem queuesOnly_deliverForeign (i : Nat) (listener : Option (Handle × Callback))
    (outcome : Outcome) : QueuesOnly allowed _ (Program.deliverForeign i listener outcome) := by
  have hK := @composes_queuesOnly allowed
  refine hK.bind ?_ fun (status, result) => ?_
  · cases outcome with
    | ok result => exact hK.bind (queuesOnly_boundary_step i _) fun _ => hK.pure _
    | error fault => exact hK.pure _
  · rcases listener with _ | ⟨handle, callback⟩
    · cases result with
      | none => exact hK.pure _
      | some message => exact hK.bind (queuesOnly_boundary_step i _) fun _ => hK.pure _
    · cases hterminal : outcome.isTerminal with
      | true => exact hK.bind (queuesOnly_boundary_step i _) fun _ => queuesOnly_callBack _ _ _
      | false => exact queuesOnly_callBack _ _ _

theorem queuesOnly_handling (hown : AllowsOwn allowed) (handler : Handler) (call : Nat)
    (outcome : Outcome) : QueuesOnly allowed _ (handling handler call outcome) := by
  cases handler with
  | foreign i listener => exact queuesOnly_deliverForeign i listener outcome
  | scripted side tag followUp panicOn current =>
    exact (@mimics_handling "" _ rfl call outcome).queuesOnly hown
  | promise i => exact (@mimics_handling "" _ rfl call outcome).queuesOnly hown
  | silent => exact (@mimics_handling "" _ rfl call outcome).queuesOnly hown

theorem queuesOnly_runJob (hown : AllowsOwn allowed) (side : Side) (job : Job) :
    QueuesOnly allowed _ (Program.runJob side job) := by
  have hK := @composes_queuesOnly allowed
  have hmimics {job : Job} (htyped : job.typed = job) (hother : job.isDelivery = false) :
      QueuesOnly allowed _ (Program.runJob side job) :=
    (@mimics_runJob "" side job htyped hother).queuesOnly hown
  cases job with
  | resume k outcome terminal =>
    have hcell {α : Type} (f : Continuation Handler → α × Continuation Handler) :
        QueuesOnly allowed α ((Program.cell k).step f) := queuesOnly_of_same fun _ _ => rfl
    have hcall (handler : Handler) (n : Nat) :
        QueuesOnly allowed _ (Program.callHandler handler n outcome) := by
      intro a other task htask
      rw [run_callHandler] at htask
      rcases queuesOnly_handling hown handler n outcome _ other task htask with hold | hnew
      · rw [observing] at hold
        split at hold
        · exact Or.inl hold
        · exact Or.inl hold
      · exact Or.inr hnew
    refine hK.bind (hcell _) fun taken => ?_
    rcases taken with _ | ⟨handler, n⟩
    · exact hK.pure _
    · exact hK.bind (hcall handler n) fun ended => hK.bind (hcell _) fun _ => hK.pure _
  | completion completion =>
    cases completion with
    | foreign i handle callback =>
      exact hK.bind (queuesOnly_boundary_step i _) fun _ => queuesOnly_callBack _ _ _
    | scripted ack => exact hmimics rfl rfl
    | promise i => exact hmimics rfl rfl
  | arrival msg => exact hmimics rfl rfl
  | initExtension properties => exact hmimics rfl rfl
  | startExtension => exact hmimics rfl rfl
  | phase callback => exact hmimics rfl rfl

/-- A worker takes a task from its queue, and whatever that does, it queues nothing for
callbacks. -/
theorem queuesOnly_advance (hown : AllowsOwn allowed) (side : Side) :
    QueuesOnly allowed _ (Program.advance side) := by
  have hK := @composes_queuesOnly allowed
  have hcount (ended : Except Panic Unit) :
      QueuesOnly allowed _ ((Program.worker side).modify (·.count ended)) :=
    queuesOnly_worker_step side fun w task htask => Or.inl (Worker.queue_count ended w ▸ htask)
  have hnext : QueuesOnly allowed _ ((Program.worker side).step Worker.next) := by
    refine queuesOnly_worker_step side fun w task htask => ?_
    rw [Worker.next] at htask
    split at htask
    · exact Or.inl htask
    · next hqueue => exact Or.inl (hqueue ▸ List.mem_cons_of_mem _ htask)
  refine hK.bind hnext fun task => ?_
  rcases task with _ | job | _
  · exact hK.pure _
  · exact hK.bind (queuesOnly_runJob hown side job) fun ended =>
      hK.bind (hcount ended) fun _ => hK.pure _
  · exact hK.bind (hcount _) fun _ => hK.pure _

/-- A plain turn queues nothing for callbacks. -/
theorem Turn.queuesOnly (hown : AllowsOwn allowed) {t : Turn} (h : t.isPlain) :
    QueuesOnly allowed _ t.perform := by
  have hK := @composes_queuesOnly allowed
  have hphase (callback : PhaseCallback) :
      QueuesOnly allowed _ (Program.schedulePhase callback) :=
    hK.bind (queuesOnly_accept .tester (hown _ rfl)) fun _ => hK.pure _
  cases t with
  | host call => cases h
  | task side => cases h
  | step s own =>
    refine (@mimics_perform "" s (fun heq => ?_) fun call heq => ?_).queuesOnly hown
    · subst heq
      cases own
    · subst heq
      cases own
  | start tester =>
    refine hK.bind (hK.bind (queuesOnly_of_same fun _ _ => rfl) fun _ => ?_) fun _ => hK.pure _
    exact hK.bind (hphase .start) fun _ =>
      hK.bind (queuesOnly_accept .engine (hown _ rfl)) fun _ => hK.pure _
  | answer event =>
    refine hK.bind ?_ fun _ => hK.pure _
    cases event with
    | started => exact hK.pure _
    | stopping => exact hK.bind (hphase .stop) fun _ => hK.pure _
    | stopped => exact hK.bind (hphase .deinit) fun _ => hK.pure _
    | deinited => exact hK.pure _
  | flush side => exact hK.bind (queuesOnly_accept side (hown .mark rfl)) fun _ => hK.pure _
  | abort reason =>
    refine hK.bind (hK.bind (queuesOnly_of_same fun _ _ => rfl) fun _ => ?_) fun _ => hK.pure _
    exact queuesOnly_onTable hown (·.cancelAll reason)
  | shutDown side =>
    exact hK.bind (queuesOnly_worker_step side fun _ _ => Or.inl) fun _ => hK.pure _
  | leave => exact hK.bind (queuesOnly_of_same fun _ _ => rfl) fun _ => hK.pure _

end Turns

section Listeners

variable {a a' : App} {i : Nat} {listener : Option (Handle × Callback)}

theorem allowsOwn_sentFor (i : Nat) (listener : Option (Handle × Callback)) :
    AllowsOwn (SentFor i listener) := fun _ => Or.inl

theorem sentFor_foreignCompletion {c : Completion}
    (h : Program.foreignCompletion i listener = some c) :
    SentFor i listener (.job (.completion c)) := by
  rcases listener with _ | ⟨handle, callback⟩
  · cases h
  · cases h
    exact Or.inr ⟨handle, callback, rfl, rfl⟩

/-- Whoever waits newly is in a queue or has a new handler. -/
theorem expectsOnly_of_queue
    (hhears : ∀ k j other, a'.Hears k j other → a.Hears k j other ∨ j = i ∧ listener = other)
    (hqueue : ∀ side, ∀ task ∈ (a'.worker side).queue,
      task ∈ (a.worker side).queue ∨ SentFor i listener task) : ExpectsOnly a a' i listener := by
  rintro j handle callback (⟨k, hwaits⟩ | ⟨side, hqueued⟩)
  · rcases hhears k j _ hwaits with hold | hnew
    · exact Or.inl (Or.inl ⟨k, hold⟩)
    · exact Or.inr hnew
  · rcases hqueue side _ hqueued with hold | hown | ⟨other, told, rfl, htask⟩
    · exact Or.inl (Or.inr ⟨side, hold⟩)
    · cases hown
    · cases htask
      exact Or.inr ⟨rfl, rfl⟩

theorem ExpectsOnly.expects {j : Nat} {handle : Handle} {callback : Callback}
    (h : ExpectsOnly a a' i none) (hwaits : a'.Expects j handle callback) :
    a.Expects j handle callback := by
  rcases h j handle callback hwaits with hold | ⟨-, hnone⟩
  · exact hold
  · cases hnone

/-- Nobody waits newly for a program that mimics itself. -/
theorem Mimics.expectsOnly {nobody : String} {α : Type} {p : Program α} (h : Mimics nobody p p)
    (a : App) (i : Nat) (listener : Option (Handle × Callback)) :
    ExpectsOnly a (p.run a).2 i listener := by
  obtain ⟨events, hmirrored⟩ := h.follows a []
  refine expectsOnly_of_queue (fun k j other hwaits => Or.inl (hmirrored.hears k j other hwaits)) ?_
  exact h.queuesOnly (allowsOwn_sentFor i listener) a

/-- The completion of a send waits newly. -/
theorem expectsOnly_send (i : Nat) (listener : Option (Handle × Callback)) (msg : Message)
    (a : App) :
    ExpectsOnly a ((Program.send .tester msg (Program.foreignCompletion i listener)).run a).2 i
      listener := by
  have hK := @composes_queuesOnly (SentFor i listener)
  have hown := allowsOwn_sentFor i listener
  obtain ⟨events, hmirrored⟩ :=
    (@mimics_send "" .tester msg (Program.foreignCompletion i listener)).follows a []
  refine expectsOnly_of_queue (fun k j other hwaits => Or.inl (hmirrored.hears k j other hwaits)) ?_
  have hsend : QueuesOnly (SentFor i listener) _
      (Program.send .tester msg (Program.foreignCompletion i listener)) := by
    refine hK.bind (queuesOnly_of_same fun _ _ => rfl) fun b => ?_
    exact queuesOnly_counted (hK.send (fits_queuesOnly hown).toReaches _ msg) _
      fun _ => sentFor_foreignCompletion
  exact hsend a

theorem expectsOnly_returnResult (i : Nat) (listener : Option (Handle × Callback))
    (result : CmdResult) (a : App) :
    ExpectsOnly a
      ((Program.returnResult .tester result (Program.foreignCompletion i listener)).run a).2 i
      listener := by
  have hown := allowsOwn_sentFor i listener
  obtain ⟨events, hmirrored⟩ :=
    (@mimics_returnResult "" .tester result (Program.foreignCompletion i listener)).follows a []
  refine expectsOnly_of_queue (fun k j other hwaits => Or.inl (hmirrored.hears k j other hwaits)) ?_
  have hreturn : QueuesOnly (SentFor i listener) _
      (Program.returnResult .tester result (Program.foreignCompletion i listener)) :=
    queuesOnly_counted
      (composes_queuesOnly.returnResult (fits_queuesOnly hown).complete result) _
      fun _ => sentFor_foreignCompletion
  exact hreturn a

/-- The handler of a command waits newly. -/
theorem expectsOnly_sendCmd (i : Nat) (listener : Option (Handle × Callback)) (cmd : Cmd)
    (streaming : Bool) (a : App) :
    ExpectsOnly a ((Program.sendCmd (.foreign i listener) cmd streaming).run a).2 i listener := by
  obtain ⟨events, hmirrored⟩ := @follows_sendFor "" .tester cmd streaming a.cells.size
    { a with cells := a.cells.push (.ofHandler (.foreign i listener)) } []
  refine expectsOnly_of_queue (fun k j other hwaits => ?_) ?_
  · obtain ⟨c, hfound, hslot⟩ := hmirrored.hears k j other hwaits
    change (a.cells.push (.ofHandler (.foreign i listener)))[k]? = some c at hfound
    rw [Array.getElem?_push] at hfound
    split at hfound
    · cases hfound
      cases hslot
      exact Or.inr ⟨rfl, rfl⟩
    · exact Or.inl ⟨c, hfound, hslot⟩
  · exact queuesOnly_sendCmd (allowsOwn_sentFor i listener) _ cmd streaming a

end Listeners

end Switchboard.App
