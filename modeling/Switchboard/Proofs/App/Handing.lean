import Switchboard.Proofs.App.Placement
/-!
# What is handed to the sides

Forwarding a message hands it to a side, if its destination has an endpoint and the worker behind it
takes tasks. An operation hands over at most one message, and puts it behind everything that was
queued; besides it queues tasks that bring no messages. Who is there and who takes tasks stays as it
is.
-/
namespace Switchboard.App

/-- The message that a task brings to a side. -/
def arrivalOf : Task Job → Option Message
  | .job (.arrival msg) => some msg
  | .job (.resume ..) | .job (.initExtension _) | .job .startExtension | .job (.phase _)
  | .job (.completion _) | .mark => none

/-- Whether a task initialises the extension. -/
def isInit : Task Job → Bool
  | .job (.initExtension _) => true
  | .job (.resume ..) | .job (.arrival _) | .job .startExtension | .job (.phase _)
  | .job (.completion _) | .mark => false

/-- Whether a task may be queued for a side of an application that was built: it brings an outcome or
a message, or it is for that side to do and initialises nothing. -/
def isLater (side : Side) : Task Job → Bool
  | .job (.initExtension _) => false
  | .job .startExtension => side = .engine
  | .job (.phase _) | .job (.completion _) => side = .tester
  | .job (.resume ..) | .job (.arrival _) | .mark => true

theorem isInit_of_isLater {side : Side} {task : Task Job} (h : isLater side task = true) :
    isInit task = false := by
  cases task with
  | mark => rfl
  | job job =>
    cases job with
    | initExtension properties => cases h
    | _ => rfl

/-- The side that a message is handed to, if forwarding it to a location succeeds. -/
def receiver? (a : App) (dest : Loc) (msg : Message) : Option Side :=
  match a.router.resolve dest with
  | .error _ => none
  | .ok side =>
    match ((Program.forward side msg).run a).1 with
    | .error _ => none
    | .ok () => some side

/-- A message as it is forwarded to a location, and the side that it is handed to. -/
def handing? (a : App) (dest : Loc) (msg : Message) : Option (Side × Message) :=
  (a.receiver? dest msg).map fun side => (side, msg)

/-- What an operation hands to whom, when it has answered. -/
def Operation.handed? (a : App) : (op : Operation) → op.Answer → Option (Side × Message)
  | send p msg, .ok () => a.handing? (p.destination msg.dest) (msg.withDest (p.destination msg.dest))
  | sendCmd handler cmd _, .ok id =>
    let p := a.outlet handler.side
    a.handing? (p.destination cmd.dest) (.cmd (cmd.stamped id p.src (p.destination cmd.dest)))
  | send .., .error _ | sendCmd .., .error _ => none
  | returnResult _, _ | complete _, _ | stop, _ | await, _ | acknowledge _, _ => none

/-- The share of a side in what is handed over. -/
def share (side : Side) : Option (Side × Message) → List Message
  | some (other, msg) => if other = side then [msg] else []
  | none => []

/-- What comes of an application when something is handed over, or nothing: it is put behind whatever
is queued, with tasks that bring no messages. -/
structure Hands (handed : Option (Side × Message)) (a a' : App) : Prop where
  routes : a'.router.routes = a.router.routes
  name : a'.name = a.name
  extension : a'.extension = a.extension
  tester : a'.tester = a.tester
  accepting : ∀ side, (a'.worker side).accepting = (a.worker side).accepting
  shut : ∀ side, (a.worker side).accepting = false →
    (a'.worker side).queue = (a.worker side).queue
  queue : ∀ side, ∃ more, (a'.worker side).queue = (a.worker side).queue ++ more ∧
    more.filterMap arrivalOf = share side handed ∧ ∀ task ∈ more, isLater side task = true

section Hands

variable {handed : Option (Side × Message)} {a b c : App}

/-- Nothing that matters to whoever hands something over has changed. -/
theorem hands_of_same (hroutes : b.router.routes = a.router.routes) (hname : b.name = a.name)
    (hextension : b.extension = a.extension)
    (htester : b.tester = a.tester) (hworker : ∀ side, b.worker side = a.worker side) :
    Hands none a b where
  routes := hroutes
  name := hname
  extension := hextension
  tester := htester
  accepting side := congrArg Worker.accepting (hworker side)
  shut side _ := congrArg Worker.queue (hworker side)
  queue side := ⟨[], by rw [hworker, List.append_nil], rfl, nofun⟩

theorem Hands.refl (a : App) : Hands none a a := hands_of_same rfl rfl rfl rfl fun _ => rfl

/-- Something is handed over before or after something that hands nothing over. -/
theorem Hands.trans {first second : Option (Side × Message)} (h : Hands first a b)
    (h' : Hands second b c)
    (heither : ∀ side, share side first ++ share side second = share side handed) :
    Hands handed a c where
  routes := h'.routes.trans h.routes
  name := h'.name.trans h.name
  extension := h'.extension.trans h.extension
  tester := h'.tester.trans h.tester
  accepting side := (h'.accepting side).trans (h.accepting side)
  shut side hshut :=
    (h'.shut side ((h.accepting side).trans hshut)).trans (h.shut side hshut)
  queue side := by
    obtain ⟨more, hqueue, hshare, hlater⟩ := h.queue side
    obtain ⟨more', hqueue', hshare', hlater'⟩ := h'.queue side
    refine ⟨more ++ more', ?_, ?_, fun task htask => ?_⟩
    · rw [hqueue', hqueue, List.append_assoc]
    · rw [List.filterMap_append, hshare, hshare', heither]
    · exact (List.mem_append.mp htask).elim (hlater task) (hlater' task)

theorem Hands.before (h : Hands none a b) (h' : Hands handed b c) : Hands handed a c :=
  h.trans h' fun _ => rfl

theorem Hands.after (h : Hands handed a b) (h' : Hands none b c) : Hands handed a c :=
  h.trans h' fun _ => List.append_nil _

/-- A task is queued behind the others, if the worker takes tasks. -/
theorem hands_accept (a : App) (side : Side) (task : Task Job)
    (hlater : isLater side task = true) :
    Hands (if (a.worker side).accepting then (arrivalOf task).map fun msg => (side, msg) else none) a
      (a.setWorker side ((a.worker side).accept task).2) := by
  cases haccepting : (a.worker side).accepting with
  | false =>
    have hsame : a.setWorker side (a.worker side) = a := by
      cases side
      · rfl
      · rfl
    rw [Worker.accept_of_not_accepting haccepting, hsame]
    exact .refl a
  | true =>
    rw [Worker.accept_of_accepting haccepting]
    refine
      { routes := congrArg Router.routes (router_setWorker a side _)
        name := name_setWorker a side _
        extension := extension_setWorker a side _
        tester := tester_setWorker a side _
        accepting := fun other => ?_
        shut := fun other hshut => ?_
        queue := fun other => ?_ }
    · rw [worker_setWorker]
      split
      · next heq => exact congrArg (fun side => (a.worker side).accepting) heq
      · rfl
    · rw [worker_setWorker, if_neg]
      rintro rfl
      rw [haccepting] at hshut
      cases hshut
    · rw [worker_setWorker]
      split
      · next heq =>
        subst heq
        refine ⟨[task], rfl, ?_, fun task' htask => ?_⟩
        · cases hmsg : arrivalOf task with
          | none => simp [hmsg, share]
          | some msg => simp [hmsg, share]
        · rw [List.mem_singleton.mp htask]
          exact hlater
      · next hne =>
        refine ⟨[], (List.append_nil _).symm, ?_, nofun⟩
        cases hmsg : arrivalOf task with
        | none => rfl
        | some msg => simp [share, hne]

end Hands

/-- A program that hands nothing over. -/
def Withholds (α : Type) (p : Program α) : Prop := ∀ a : App, Hands none a (p.run a).2

section Withholds

variable {α : Type}

theorem composes_withholds : Composes Withholds where
  pure _ a := .refl a
  bind hp hf a := (hp a).before (hf _ _)

theorem withholds_accept (side : Side) (task : Task Job) (harrival : arrivalOf task = none)
    (hlater : isLater side task = true) : Withholds _ ((Program.worker side).step (·.accept task)) := by
  intro a
  have hands := hands_accept a side task hlater
  rw [harrival, Option.map_none, ite_self] at hands
  exact hands

/-- A program that does nothing to the routes, the workers and the tester. -/
theorem withholds_of_same {p : Program α}
    (hroutes : ∀ a, (p.run a).2.router.routes = a.router.routes)
    (hname : ∀ a, (p.run a).2.name = a.name)
    (hextension : ∀ a, (p.run a).2.extension = a.extension)
    (htester : ∀ a, (p.run a).2.tester = a.tester)
    (hworker : ∀ a side, (p.run a).2.worker side = a.worker side) : Withholds α p :=
  fun a => hands_of_same (hroutes a) (hname a) (hextension a) (htester a) (hworker a)

theorem withholds_submit (d : Delivery Nat Side) : Withholds _ (Program.submit d) := by
  apply composes_withholds.bind (withholds_accept d.executor (taskOf d) rfl rfl)
  intro answer
  cases answer with
  | ok _ => exact composes_withholds.pure _
  | error e =>
    have hcell : Withholds _ (Program.cell d.continuation).get :=
      withholds_of_same (fun _ => rfl) (fun _ => rfl) (fun _ => rfl) (fun _ => rfl) fun _ _ => rfl
    refine composes_withholds.bind hcell fun c => ?_
    split
    · exact withholds_of_same (fun _ => rfl) (fun _ => rfl) (fun _ => rfl) (fun _ => rfl) fun _ _ => rfl
    · exact composes_withholds.pure _

theorem withholds_onTable
    (op : PendingTable Nat Side → α × List (Delivery Nat Side) × PendingTable Nat Side) :
    Withholds _ (Program.fabric.onTable op) := by
  refine composes_withholds.bind ?_ fun (answer, deliveries) => ?_
  · exact withholds_of_same (fun _ => rfl) (fun _ => rfl) (fun _ => rfl) (fun _ => rfl) fun _ _ => rfl
  · exact composes_withholds.bind (composes_withholds.forM withholds_submit deliveries) fun _ =>
      composes_withholds.pure _

end Withholds

section Handing

variable {handed : Option (Side × Message)} {a b : App}

/-- Whether forwarding succeeds depends on routes and on who takes tasks. -/
theorem run_forward_eq_ok_iff (a : App) (side : Side) (msg : Message) :
    ((Program.forward side msg).run a).1 = .ok () ↔
      (∀ result, msg ≠ .cmdResult result) ∧ (a.worker side).accepting = true := by
  have haccept : ((a.worker side).accept (.job (.arrival msg))).1 = .ok () ↔
      (a.worker side).accepting = true := by
    rw [Worker.accept]
    split
    · next haccepting => simp [haccepting]
    · next hshut => simp [hshut]
  cases msg with
  | cmdResult result =>
    change Except.error _ = Except.ok () ↔ _
    simp
  | cmd cmd => exact haccept.trans (by simp)
  | data data => exact haccept.trans (by simp)
  | audioFrame frame => exact haccept.trans (by simp)
  | videoFrame frame => exact haccept.trans (by simp)

theorem receiver?_eq_some_iff {dest : Loc} {msg : Message} {side : Side} :
    a.receiver? dest msg = some side ↔
      a.router.resolve dest = .ok side ∧ ((Program.forward side msg).run a).1 = .ok () := by
  rw [receiver?]
  cases a.router.resolve dest with
  | error e => simp
  | ok other =>
    dsimp only
    cases hanswer : ((Program.forward other msg).run a).1 with
    | error e =>
      simp only [reduceCtorEq, false_iff, not_and, Except.ok.injEq]
      rintro rfl
      rw [hanswer]
      simp
    | ok _ =>
      simp only [Option.some.injEq, Except.ok.injEq]
      constructor
      · rintro rfl
        exact ⟨rfl, hanswer⟩
      · exact And.left

theorem Hands.receiver? (h : Hands handed a b) (dest : Loc) (msg : Message) :
    b.receiver? dest msg = a.receiver? dest msg := by
  rw [Option.ext_iff]
  intro side
  rw [receiver?_eq_some_iff, receiver?_eq_some_iff, run_forward_eq_ok_iff, run_forward_eq_ok_iff,
    h.accepting, Router.resolve, Router.resolve, Router.endpoint?, Router.endpoint?, h.routes]

theorem Hands.handing? (h : Hands handed a b) (dest : Loc) (msg : Message) :
    b.handing? dest msg = a.handing? dest msg := by
  rw [App.handing?, App.handing?, h.receiver?]

/-- The worker of a side is handed a message, unless that fails. -/
theorem hands_forward (a : App) (side : Side) (msg : Message) :
    Hands
      (match ((Program.forward side msg).run a).1 with
        | .error _ => none
        | .ok () => some (side, msg))
      a ((Program.forward side msg).run a).2 := by
  have hqueue := hands_accept a side (.job (.arrival msg)) rfl
  have hanswer : (match ((a.worker side).accept (.job (.arrival msg))).1 with
      | .error _ => none
      | .ok () => some (side, msg)) =
      if (a.worker side).accepting then (arrivalOf (.job (.arrival msg))).map fun msg => (side, msg)
      else none := by
    rw [Worker.accept]
    cases (a.worker side).accepting
    · rfl
    · rfl
  rw [← hanswer] at hqueue
  cases msg with
  | cmdResult result => exact .refl a
  | cmd | data | audioFrame | videoFrame => exact hqueue

/-- A message that is forwarded is handed over just if forwarding succeeds. -/
theorem hands_forwardTo (a : App) (dest : Loc) (msg : Message) :
    Hands (a.handing? dest msg) a ((Program.fabric.forwardTo dest msg).run a).2 ∧
      (((Program.fabric.forwardTo dest msg).run a).1 = .ok () ↔
        (a.handing? dest msg).isSome = true) := by
  have hget : Program.fabric.router.get.run a = (a.router, a) := rfl
  rw [Fabric.forwardTo, run_bind, hget, handing?, receiver?]
  dsimp only
  cases a.router.resolve dest with
  | error e =>
    refine ⟨.refl a, ?_⟩
    change Except.error e = Except.ok () ↔ (none : Option (Side × Message)).isSome = true
    simp
  | ok side =>
    have hforward := hands_forward a side msg
    change Hands _ a ((Program.forward side msg).run a).2 ∧
      (((Program.forward side msg).run a).1 = .ok () ↔ _)
    dsimp only
    cases hanswer : ((Program.forward side msg).run a).1 with
    | error e =>
      rw [hanswer] at hforward
      exact ⟨hforward, by simp⟩
    | ok _ =>
      rw [hanswer] at hforward
      exact ⟨hforward, by simp⟩

/-- A message that is sent is handed over just if that succeeds. -/
theorem hands_send (a : App) (p : Outlet Side) (msg : Message) :
    let sent := (p.send Program.fabric msg).run a
    Hands ((Operation.send p msg).handed? a sent.1) a sent.2 ∧
      (sent.1 = .ok () ↔ ((Operation.send p msg).handed? a sent.1).isSome = true) := by
  intro sent
  rcases Fabric.run_send Program.fabric (fun _ => rfl) p msg a with ⟨e, hrun⟩ | hrun
  · have hsent : sent = (.error e, a) := hrun
    rw [hsent]
    exact ⟨.refl a, by simp [Operation.handed?]⟩
  · have hsent : sent = (Program.fabric.forwardTo (p.destination msg.dest)
        (msg.withDest (p.destination msg.dest))).run a := hrun
    obtain ⟨hands, hverdict⟩ := hands_forwardTo a (p.destination msg.dest)
      (msg.withDest (p.destination msg.dest))
    rw [← hsent] at hands hverdict
    cases hanswer : sent.1 with
    | ok _ =>
      rw [hanswer] at hverdict
      exact ⟨hands, hverdict⟩
    | error e =>
      have hnothing : a.handing? (p.destination msg.dest)
          (msg.withDest (p.destination msg.dest)) = none := by
        rw [← Option.not_isSome_iff_eq_none, ← hverdict, hanswer]
        simp
      rw [hnothing] at hands
      exact ⟨hands, by simp [Operation.handed?]⟩

/-- A command that is sent is handed over if its send succeeds and then forwarding does. -/
theorem hands_sendThrough (a : App) (p : Outlet Side) (cmd : Cmd) (i : Nat) (streaming : Bool) :
    let sent := (p.sendCmd Program.fabric cmd i streaming).run a
    let dest := p.destination cmd.dest
    Hands
      (match sent.1 with
        | .error _ => none
        | .ok id => a.handing? dest (.cmd (cmd.stamped id p.src dest)))
      a sent.2 := by
  intro sent dest
  rcases Fabric.run_sendCmd Program.fabric (fun _ => rfl) p cmd i streaming a with
    ⟨e, hrun⟩ | ⟨e, -, hrun⟩ | ⟨id, -, hrun⟩
  · have hsent : sent = (.error e, a) := hrun
    rw [hsent]
    exact .refl a
  · have hsent : sent = (.error e, _) := hrun
    rw [hsent]
    exact hands_of_same rfl rfl rfl rfl fun _ => rfl
  · set accepted := ((Program.fabric.router.step
      (·.accept ⟨i, p.executor, streaming⟩)).run a).2
    have haccepted : Hands none a accepted := hands_of_same rfl rfl rfl rfl fun _ => rfl
    have hsent : sent = (.ok id, Program.fabric.settled id
        ((Program.fabric.forwardTo dest (.cmd (cmd.stamped id p.src dest))).run accepted)) := hrun
    obtain ⟨hands, -⟩ := hands_forwardTo accepted dest (.cmd (cmd.stamped id p.src dest))
    rw [haccepted.handing?] at hands
    rw [hsent]
    refine (haccepted.before hands).after ?_
    rcases (Program.fabric.forwardTo dest (.cmd (cmd.stamped id p.src dest))).run accepted with
      ⟨e | _, b⟩
    · exact withholds_onTable (·.fail id e) b
    · exact .refl b

/-- The tester's pool and counters have no part in what a side hands over. -/
theorem hands_sendCmdFrom (a : App) (side : Side) (i : Nat) (cmd : Cmd) (streaming : Bool) :
    let sent := (Program.sendCmdFrom side i cmd streaming).run a
    let dest := (a.outlet side).destination cmd.dest
    Hands
      (match sent.1 with
        | .error _ => none
        | .ok id => a.handing? dest (.cmd (cmd.stamped id (a.outlet side).src dest)))
      a sent.2 := by
  have hget : (get : Program App).run a = (a, a) := rfl
  rw [Program.sendCmdFrom, run_bind, hget]
  cases side with
  | engine => exact hands_sendThrough a (a.outlet .engine) cmd i streaming
  | tester =>
    let entered : App := { a with pool := a.pool.take }
    have hentered : Hands none a entered := hands_of_same rfl rfl rfl rfl fun _ => rfl
    have hthrough := hands_sendThrough entered (a.outlet .tester) cmd i streaming
    simp only [hentered.handing?] at hthrough
    set through := ((a.outlet .tester).sendCmd Program.fabric cmd i streaming).run entered
    have hduring : (PermitPool.during Program.pool
        ((a.outlet .tester).sendCmd Program.fabric cmd i streaming)).run a =
        (through.1, { through.2 with pool := through.2.pool.give }) := rfl
    dsimp only
    rw [run_bind, hduring]
    dsimp only
    cases hanswer : through.1 with
    | error e =>
      rw [hanswer] at hthrough
      exact (hentered.before hthrough).after (hands_of_same rfl rfl rfl rfl fun _ => rfl)
    | ok id =>
      rw [hanswer] at hthrough
      exact (hentered.before hthrough).after (hands_of_same rfl rfl rfl rfl fun _ => rfl)

/-- A new continuation has no part in it either. -/
theorem hands_sendCmd (a : App) (handler : Handler) (cmd : Cmd) (streaming : Bool) :
    let sent := (Program.sendCmd handler cmd streaming).run a
    let p := a.outlet handler.side
    Hands
      (match sent.1 with
        | .error _ => none
        | .ok id => a.handing? (p.destination cmd.dest)
          (.cmd (cmd.stamped id p.src (p.destination cmd.dest))))
      a sent.2 := by
  let pushed : App := { a with cells := a.cells.push (.ofHandler handler) }
  have hpushed : Hands none a pushed := hands_of_same rfl rfl rfl rfl fun _ => rfl
  have hfrom := hands_sendCmdFrom pushed handler.side a.cells.size cmd streaming
  simp only [hpushed.handing?] at hfrom
  set sent := (Program.sendCmdFrom handler.side a.cells.size cmd streaming).run pushed
  have hnew : (Program.newCell handler).run a = (a.cells.size, pushed) := rfl
  rw [Program.sendCmd, run_bind, hnew, run_bind]
  dsimp only
  cases hanswer : sent.1 with
  | error e =>
    rw [hanswer] at hfrom
    exact hpushed.before hfrom
  | ok id =>
    rw [hanswer] at hfrom
    exact (hpushed.before hfrom).after (hands_of_same rfl rfl rfl rfl fun _ => rfl)

/-- Each operation hands over what it is said to. -/
theorem Operation.hands (op : Operation) (a : App) :
    Hands (op.handed? a (op.perform.run a).1) a (op.perform.run a).2 := by
  have hK := composes_withholds
  cases op with
  | send p msg => exact (hands_send a p msg).1
  | returnResult result => exact hK.returnResult (fun id result => withholds_onTable _) result a
  | complete completion =>
    exact withholds_accept .tester (.job (.completion completion)) rfl rfl a
  | await => exact withholds_accept .tester .mark rfl rfl a
  | acknowledge callback => exact hands_of_same rfl rfl rfl rfl fun _ => rfl
  | stop =>
    have hlifecycle {α : Type} (f : Lifecycle → α × Lifecycle) :
        Withholds α (Program.lifecycle.step f) :=
      withholds_of_same (fun _ => rfl) (fun _ => rfl) (fun _ => rfl) (fun _ => rfl) fun _ _ => rfl
    have hclose : Withholds _ (Program.router.modify .close) :=
      withholds_of_same (fun _ => rfl) (fun _ => rfl) (fun _ => rfl) (fun _ => rfl) fun _ _ => rfl
    have htearDown : Withholds _ (Program.tearDown "test stopped") :=
      hK.bind hclose fun _ => withholds_onTable _
    exact hK.beginStop hlifecycle (hK.bind htearDown fun _ => hK.pure _) a
  | sendCmd handler cmd streaming =>
    have hands := hands_sendCmd a handler cmd streaming
    dsimp only at hands
    change Hands (handed? a (sendCmd handler cmd streaming)
      ((Program.sendCmd handler cmd streaming).run a).1) a
      ((Program.sendCmd handler cmd streaming).run a).2
    cases hanswer : ((Program.sendCmd handler cmd streaming).run a).1 with
    | error e =>
      rw [hanswer] at hands
      exact hands
    | ok id =>
      rw [hanswer] at hands
      exact hands

end Handing

end Switchboard.App
