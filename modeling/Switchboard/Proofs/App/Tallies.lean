import Switchboard.Proofs.App.Placement
import Switchboard.Proofs.Pending.Balance
/-!
# What is counted of commands

The counters of the table always add up. A command that is sent is taken by the table, and counted
if the tester has sent it; one that is refused leaves nothing behind that anybody counts. Results
that are not final are queued for continuations of streaming commands only.
-/
namespace Switchboard

namespace PendingTable

variable {κ ε : Type} [DecidableEq κ]

/-- What an operation of a table hands out and leaves behind: it serves requests, the counters add
up, and results that are not final go to streaming requests. -/
structure Yields (t : PendingTable κ ε) (deliveries : List (Delivery κ ε))
    (t' : PendingTable κ ε) : Prop where
  serves : t.Serves deliveries t'
  balanced : ∃ log, t'.Balanced log
  streaming : ∀ d ∈ deliveries, d.terminal = false →
    ∃ e ∈ t.entries, e.2.continuation = d.continuation ∧ e.2.streaming = true

variable {t : PendingTable κ ε} {log : List (PendingCall κ ε × PendingAnswer)}

theorem Balanced.yields_complete (h : t.Balanced log) (id : RequestId) (result : CmdResult) :
    t.Yields (t.complete id result).2.1 (t.complete id result).2.2 where
  serves := h.sharded.serves_complete id result
  balanced := ⟨_, h.perform (.complete id result)⟩
  streaming d hd hinterim := by
    cases hf : t.find? id with
    | none =>
      rw [complete_of_none hf] at hd
      cases hd
    | some request =>
      cases hfinal : result.isFinal with
      | true =>
        rw [complete_of_final hf hfinal] at hd
        rw [List.mem_singleton.mp hd] at hinterim
        cases hinterim
      | false =>
        rw [complete_of_interim hf hfinal] at hd
        cases hs : request.streaming with
        | false => simp [hs] at hd
        | true =>
          simp only [hs, if_true, List.mem_singleton] at hd
          rw [hd]
          exact ⟨_, (h.sharded.find?_eq_some_iff id request).mp hf, rfl, hs⟩

theorem Balanced.yields_fail (h : t.Balanced log) (id : RequestId) (fault : Fault) :
    t.Yields (t.fail id fault).2.1 (t.fail id fault).2.2 where
  serves := h.sharded.serves_fail id fault
  balanced := ⟨_, h.perform (.fail id fault)⟩
  streaming d hd hinterim := by
    cases hf : t.find? id with
    | none =>
      rw [fail_of_none hf] at hd
      cases hd
    | some request =>
      rw [fail_of_some hf] at hd
      rw [List.mem_singleton.mp hd] at hinterim
      cases hinterim

theorem Balanced.yields_cancelAll (h : t.Balanced log) (reason : String) :
    t.Yields (t.cancelAll reason).2.1 (t.cancelAll reason).2.2 where
  serves := t.serves_cancelAll reason
  balanced := ⟨_, h.perform (.cancelAll reason)⟩
  streaming d hd hinterim := by
    obtain ⟨e, -, rfl⟩ := List.mem_map.mp hd
    cases hinterim

end PendingTable

namespace App

/-- The counters of the table add up, and flags tell which continuations were made for streaming
commands. -/
structure Flagged (flags : List Bool) (a : App) : Prop where
  balanced : ∃ log, a.router.table.Balanced log
  size : flags.length = a.cells.size
  entries : ∀ e ∈ a.router.table.entries, flags[e.2.continuation]? = some e.2.streaming
  queued : ∀ side i outcome, .job (.resume i outcome false) ∈ (a.worker side).queue →
    flags[i]? = some true

/-- Nothing that is counted of commands has changed, and nothing waits or is queued that did not
before. -/
structure Untouched (a a' : App) : Prop where
  counters : a'.counters = a.counters
  taken : a'.router.table.taken = a.router.table.taken
  entries : a'.router.table.entries = a.router.table.entries
  worker : ∀ side, a'.worker side = a.worker side

/-- When a program fails, it has changed nothing that is counted of commands. -/
def Spares {α : Type} (a : App) (p : Program (Except Fault α)) : Prop :=
  ∀ e, (p.run a).1 = .error e → Untouched a (p.run a).2

/-- No commands were counted or taken. -/
structure Uncounted (flags : List Bool) (a a' : App) : Prop where
  flagged : a'.Flagged flags
  counters : a'.counters = a.counters
  taken : a'.router.table.taken = a.router.table.taken

/-- A program that counts and takes no commands. -/
def Tallies (flags : List Bool) (α : Type) (p : Program α) : Prop :=
  ∀ a : App, a.Flagged flags → Uncounted flags a (p.run a).2

section Flags

variable {flags : List Bool} {a a' : App}

theorem Flagged.still (ha : a.Flagged flags) : Uncounted flags a a := ⟨ha, rfl, rfl⟩

theorem Uncounted.trans {a'' : App} (h : Uncounted flags a a') (h' : Uncounted flags a' a'') :
    Uncounted flags a a'' :=
  ⟨h'.flagged, h'.counters.trans h.counters, h'.taken.trans h.taken⟩

theorem composes_tallies : Composes (Tallies flags) where
  pure _ _ ha := ha.still
  bind hp hf _ ha := (hp _ ha).trans (hf _ _ (hp _ ha).flagged)

/-- Nothing is queued that was not, and there are no more continuations. -/
theorem Flagged.shrinks (ha : a.Flagged flags) (hrouter : a'.router = a.router)
    (hqueue : ∀ side, (a'.worker side).queue ⊆ (a.worker side).queue)
    (hsize : a'.cells.size = a.cells.size) : a'.Flagged flags where
  balanced := hrouter ▸ ha.balanced
  size := ha.size.trans hsize.symm
  entries := hrouter ▸ ha.entries
  queued side i outcome hmem := ha.queued side i outcome (hqueue side hmem)

/-- Requests, workers and continuations are as they were. -/
theorem Flagged.unmoved (ha : a.Flagged flags) (h : Unmoved a a') : a'.Flagged flags :=
  ha.shrinks h.router (fun side => h.worker side ▸ List.Subset.refl _) (congrArg Array.size h.cells)

theorem tallies_of_unmoved {α : Type} {p : Program α} (h : ∀ a, Unmoved a (p.run a).2)
    (hcounters : ∀ a, (p.run a).2.counters = a.counters) : Tallies flags α p := by
  intro a ha
  exact ⟨ha.unmoved (h a), hcounters a, congrArg (·.table.taken) (h a).router⟩

/-- Only the router has changed. -/
theorem Flagged.setRouter (ha : a.Flagged flags) {r : Router Nat Side Side}
    (hbalanced : ∃ log, r.table.Balanced log)
    (hentries : ∀ e ∈ r.table.entries, flags[e.2.continuation]? = some e.2.streaming) :
    { a with router := r }.Flagged flags := ⟨hbalanced, ha.size, hentries, ha.queued⟩

/-- Only one worker has changed. -/
theorem Flagged.setWorker (ha : a.Flagged flags) (side : Side) {w : Worker Job}
    (hqueued : ∀ i outcome, .job (.resume i outcome false) ∈ w.queue → flags[i]? = some true) :
    Uncounted flags a (a.setWorker side w) where
  flagged :=
    { balanced := by rw [router_setWorker]; exact ha.balanced
      size := by rw [cells_setWorker]; exact ha.size
      entries := by rw [router_setWorker]; exact ha.entries
      queued := by
        intro other
        rw [worker_setWorker]
        split
        · exact hqueued
        · exact ha.queued other }
  counters := counters_setWorker a side w
  taken := by rw [router_setWorker]

/-- A task is queued; if it brings a result that is not final, that is for a streaming command. -/
theorem tallies_accept (side : Side) {task : Task Job}
    (htask : ∀ i outcome, task = .job (.resume i outcome false) → flags[i]? = some true) :
    Tallies flags _ ((Program.worker side).step (·.accept task)) := by
  intro a ha
  change Uncounted flags a (a.setWorker side ((a.worker side).accept task).2)
  refine ha.setWorker side fun i outcome hmem => ?_
  rw [Worker.accept] at hmem
  split at hmem
  · rcases List.mem_append.mp hmem with hmem | hmem
    · exact ha.queued side i outcome hmem
    · exact htask i outcome (List.mem_singleton.mp hmem).symm
  · exact ha.queued side i outcome hmem

theorem tallies_cell_get (i : Nat) : Tallies flags _ (Program.cell i).get := by
  intro a ha
  exact ⟨⟨ha.balanced, ha.size.trans Array.size_setIfInBounds.symm, ha.entries, ha.queued⟩, rfl, rfl⟩

theorem tallies_submit {d : Delivery Nat Side}
    (hinterim : d.terminal = false → flags[d.continuation]? = some true) :
    Tallies flags _ (Program.submit d) := by
  refine composes_tallies.bind (tallies_accept d.executor fun i outcome heq => ?_) fun answer => ?_
  · simp only [Task.job.injEq, Job.resume.injEq] at heq
    rw [← heq.1]
    exact hinterim heq.2.2
  · cases answer with
    | ok _ => exact composes_tallies.pure _
    | error e =>
      refine composes_tallies.bind (tallies_cell_get _) fun c => ?_
      split
      · exact tallies_of_unmoved (fun _ => ⟨rfl, fun _ => rfl, rfl⟩) fun _ => rfl
      · exact composes_tallies.pure _

theorem tallies_submitAll {deliveries : List (Delivery Nat Side)}
    (hinterim : ∀ d ∈ deliveries, d.terminal = false → flags[d.continuation]? = some true) :
    Tallies flags _ (deliveries.forM Program.submit) := by
  induction deliveries with
  | nil => exact composes_tallies.pure PUnit.unit
  | cons d deliveries ih =>
    exact composes_tallies.bind (tallies_submit (hinterim d List.mem_cons_self)) fun _ =>
      ih fun d' hd' => hinterim d' (List.mem_cons_of_mem d hd')

/-- An operation of the table, with its deliveries. -/
theorem tallies_onTable {α : Type}
    {op : PendingTable Nat Side → α × List (Delivery Nat Side) × PendingTable Nat Side}
    (hop : ∀ (t : PendingTable Nat Side) log, t.Balanced log → t.Yields (op t).2.1 (op t).2.2) :
    Tallies flags _ (Program.fabric.onTable op) := by
  intro a ha
  obtain ⟨log, hbalanced⟩ := ha.balanced
  have hyields := hop a.router.table log hbalanced
  have hmoved : (a.handed op).Flagged flags :=
    ha.setRouter hyields.balanced fun e he => ha.entries e (hyields.serves.entries he)
  have hsubmitted := tallies_submitAll (fun d hd hinterim => by
    obtain ⟨e, he, hsame, hstreaming⟩ := hyields.streaming d hd hinterim
    rw [← hsame, ha.entries e he, hstreaming]) _ hmoved
  have hrun : ((Program.fabric.onTable op).run a).2 =
      (((op a.router.table).2.1.forM Program.submit).run (a.handed op)).2 := rfl
  rw [hrun]
  exact ⟨hsubmitted.flagged, hsubmitted.counters,
    hsubmitted.taken.trans hyields.serves.handsOut.taken⟩

theorem tallies_forward (side : Side) (msg : Message) :
    Tallies flags _ (Program.forward side msg) := by
  unfold Program.forward
  split
  · exact composes_tallies.pure _
  · exact tallies_accept side nofun

theorem fits_tallies : Composes.Fits (Tallies flags) Program.fabric where
  get _ ha := ha.still
  forward := tallies_forward
  complete id result := tallies_onTable fun _ _ ht => ht.yields_complete id result
  fail id fault := tallies_onTable fun _ _ ht => ht.yields_fail id fault

theorem tallies_cancelAll (reason : String) :
    Tallies flags _ (Program.fabric.cancelAll reason) :=
  tallies_onTable fun _ _ ht => ht.yields_cancelAll reason

/-- The router closes, whatever becomes of its endpoints. -/
theorem tallies_closing {f : Router Nat Side Side → Router Nat Side Side}
    (htable : ∀ r, (f r).table = r.table) : Tallies flags _ (Program.router.modify f) := by
  intro a ha
  change Uncounted flags a { a with router := f a.router }
  have hbalanced : ∃ log, (f a.router).table.Balanced log := by
    rw [htable]
    exact ha.balanced
  have hentries := ha.entries
  rw [← htable] at hentries
  exact ⟨ha.setRouter hbalanced hentries, rfl, congrArg (·.taken) (htable a.router)⟩

theorem tallies_tearDown (reason : String) : Tallies flags _ (Program.tearDown reason) :=
  composes_tallies.bind (tallies_closing (f := .close) fun _ => rfl) fun _ =>
    tallies_cancelAll reason

theorem tallies_abort (reason : String) : Tallies flags _ (Program.abort reason) :=
  composes_tallies.bind (tallies_closing (f := .clearRoutes) fun _ => rfl) fun _ =>
    tallies_cancelAll reason

theorem tallies_lifecycle_step {α : Type} (f : Lifecycle → α × Lifecycle) :
    Tallies flags _ (Program.lifecycle.step f) :=
  tallies_of_unmoved (fun _ => ⟨rfl, fun _ => rfl, rfl⟩) fun _ => rfl

theorem tallies_beginStop {ε : Type} {teardown : Program (Except ε Unit)}
    (h : Tallies flags _ teardown) :
    Tallies flags _ (Lifecycle.beginStop Program.lifecycle teardown) :=
  composes_tallies.beginStop tallies_lifecycle_step h

end Flags

section Sends

variable {flags : List Bool} {a : App}

theorem Untouched.refl (a : App) : Untouched a a := ⟨rfl, rfl, rfl, fun _ => rfl⟩

/-- What a router makes of a request: it is refused and nothing is taken, or it is taken and waits
under a new id. -/
theorem accept_cases {r : Router Nat Side Side} {log : List (PendingCall Nat Side × PendingAnswer)}
    (h : r.table.Balanced log) (request : PendingRequest Nat Side) :
    (∃ log, (r.accept request).2.table.Balanced log) ∧
      ((∃ e, (r.accept request).1 = .error e ∧
        (r.accept request).2 = { r with table := r.table.allocate.2 }) ∨
      ∃ id, (r.accept request).1 = .ok id ∧
        (r.accept request).2.table.taken = r.table.taken ++ [request.continuation] ∧
        (r.accept request).2.table.entries.Perm ((id, request) :: r.table.entries)) := by
  have hallocated := h.perform .allocate
  refine ⟨⟨_, hallocated.perform (.register ⟨r.table.nextId⟩ request)⟩, ?_⟩
  rcases Router.accept_cases h.sharded request with ⟨id, hid, haccepts⟩ | herror
  · refine Or.inr ⟨id, hid, ?_, haccepts.entries⟩
    have haccept : r.accept request =
        ((r.table.allocate.2.register ⟨r.table.nextId⟩ request).1.map fun _ => ⟨r.table.nextId⟩,
          { r with table := (r.table.allocate.2.register ⟨r.table.nextId⟩ request).2 }) := rfl
    obtain ⟨-, hcase⟩ := h.sharded.allocate.register ⟨r.table.nextId⟩ request
    rw [haccept] at hid ⊢
    cases hregister : r.table.allocate.2.register ⟨r.table.nextId⟩ request with
    | mk answer table =>
      rw [hregister] at hcase hid
      cases answer with
      | error e => cases hid
      | ok _ => exact hcase.1
  · exact Or.inl herror

theorem uncounted_settled (id : RequestId) {forwarded : Except Fault Unit × App}
    (h : forwarded.2.Flagged flags) :
    Uncounted flags forwarded.2 (Program.fabric.settled id forwarded) := by
  obtain ⟨verdict, b⟩ := forwarded
  cases verdict with
  | ok _ => exact h.still
  | error e => exact fits_tallies.fail id e b h

/-- A command that is sent through an outlet is refused and nobody counts it, or it is taken. -/
theorem Flagged.sendThrough (ha : a.Flagged flags) (p : Outlet Side) (cmd : Cmd) {i : Nat}
    {streaming : Bool} (hflag : flags[i]? = some streaming) :
    let sent := (p.sendCmd Program.fabric cmd i streaming).run a
    sent.2.Flagged flags ∧ ((∃ e, sent.1 = .error e ∧ Untouched a sent.2) ∨
      ∃ id, sent.1 = .ok id ∧ sent.2.counters = a.counters ∧
        sent.2.router.table.taken = a.router.table.taken ++ [i]) := by
  intro sent
  obtain ⟨log, hbalanced⟩ := ha.balanced
  let request : PendingRequest Nat Side :=
    { continuation := i, executor := p.executor, streaming }
  obtain ⟨hbalanced', hcases⟩ := accept_cases hbalanced request
  rcases Fabric.run_sendCmd Program.fabric (fun _ => rfl) p cmd i streaming a with
    ⟨e, hrun⟩ | ⟨e, hanswer, hrun⟩ | ⟨id, hanswer, hrun⟩
  · rw [show sent = _ from hrun]
    exact ⟨ha, Or.inl ⟨e, rfl, .refl a⟩⟩
  · rw [show sent = _ from hrun]
    rcases hcases with ⟨e', -, hrefused⟩ | ⟨id, hid, -⟩
    · have hrouter : ((Program.fabric.router.step (·.accept request)).run a).2 =
          { a with router := { a.router with table := a.router.table.allocate.2 } } :=
        congrArg (fun r => { a with router := r }) hrefused
      rw [hrefused] at hbalanced'
      rw [hrouter]
      exact ⟨ha.setRouter hbalanced' ha.entries, Or.inl ⟨e, rfl, rfl, rfl, rfl, fun _ => rfl⟩⟩
    · cases hid.symm.trans hanswer
  · rcases hcases with ⟨e, he, -⟩ | ⟨id', -, htaken, hentries⟩
    · cases he.symm.trans hanswer
    · have haccepted : { a with router := (a.router.accept request).2 }.Flagged flags := by
        refine ha.setRouter hbalanced' fun e he => ?_
        rcases List.mem_cons.mp (hentries.mem_iff.mp he) with rfl | he
        · exact hflag
        · exact ha.entries e he
      have hforwarded := composes_tallies.forwardTo fits_tallies.toReaches (p.destination cmd.dest)
        (.cmd (cmd.stamped id p.src (p.destination cmd.dest))) _ haccepted
      obtain ⟨hflagged, hcounters, hkept⟩ :=
        hforwarded.trans (uncounted_settled id hforwarded.flagged)
      rw [show sent = _ from hrun]
      exact ⟨hflagged, Or.inr ⟨id, rfl, hcounters, hkept.trans htaken⟩⟩

/-- A call inside the pool. -/
theorem run_during {α : Type} (call : Program α) (a : App) :
    (PermitPool.during Program.pool call).run a =
      ((call.run { a with pool := a.pool.take }).1,
        { (call.run { a with pool := a.pool.take }).2 with
          pool := (call.run { a with pool := a.pool.take }).2.pool.give }) := rfl

/-- The counters when a side has sent a command: those of the tester are counted. -/
def Counters.sent (c : Counters) (side : Side) : Counters :=
  if side = .tester then { c with cmdsSent := c.cmdsSent + 1 } else c

theorem Flagged.sendCmdFrom (ha : a.Flagged flags) (side : Side) (cmd : Cmd) {i : Nat}
    {streaming : Bool} (hflag : flags[i]? = some streaming) :
    let sent := (Program.sendCmdFrom side i cmd streaming).run a
    sent.2.Flagged flags ∧ ((∃ e, sent.1 = .error e ∧ Untouched a sent.2) ∨
      ∃ id, sent.1 = .ok id ∧ sent.2.counters = a.counters.sent side ∧
        sent.2.router.table.taken = a.router.table.taken ++ [i]) := by
  cases side with
  | engine => exact ha.sendThrough (a.outlet .engine) cmd hflag
  | tester =>
    let entered : App := { a with pool := a.pool.take }
    have hentered : entered.Flagged flags := ha.unmoved ⟨rfl, fun _ => rfl, rfl⟩
    obtain ⟨hflagged, hcases⟩ := hentered.sendThrough (a.outlet .tester) cmd hflag
    have hget : (get : Program App).run a = (a, a) := rfl
    rw [Program.sendCmdFrom, run_bind, hget]
    dsimp only
    rw [run_bind, run_during]
    rcases hcases with ⟨e, hanswer, huntouched⟩ | ⟨id, hanswer, hcounters, htaken⟩
    · rw [hanswer]
      exact ⟨hflagged.unmoved ⟨rfl, fun _ => rfl, rfl⟩, Or.inl ⟨e, rfl, huntouched.counters,
        huntouched.taken, huntouched.entries, huntouched.worker⟩⟩
    · rw [hanswer]
      refine ⟨hflagged.unmoved ⟨rfl, fun _ => rfl, rfl⟩, Or.inr ⟨id, rfl, ?_, htaken⟩⟩
      exact congrArg (Counters.sent · .tester) hcounters

/-- A command that is sent is refused and nobody counts it, or it is taken for a new continuation,
and counted if the tester has sent it. -/
theorem Flagged.sendCmd (ha : a.Flagged flags) (handler : Handler) (cmd : Cmd)
    (streaming : Bool) :
    let sent := (Program.sendCmd handler cmd streaming).run a
    sent.2.Flagged (flags ++ [streaming]) ∧ ((∃ e, sent.1 = .error e ∧ Untouched a sent.2) ∨
      ∃ id, sent.1 = .ok id ∧ sent.2.counters = a.counters.sent handler.side ∧
        sent.2.router.table.taken = a.router.table.taken ++ [a.cells.size]) := by
  let made : App := { a with cells := a.cells.push (.ofHandler handler) }
  have hmade : made.Flagged (flags ++ [streaming]) := by
    have hmore {i : Nat} {flag : Bool} (h : flags[i]? = some flag) :
        (flags ++ [streaming])[i]? = some flag := by
      rw [List.getElem?_append_left (List.getElem?_eq_some_iff.mp h).1, h]
    refine ⟨ha.balanced, ?_, fun e he => hmore (ha.entries e he), fun side i outcome hmem =>
      hmore (ha.queued side i outcome hmem)⟩
    rw [List.length_append, ha.size, List.length_singleton]
    exact (Array.size_push _).symm
  have hflag : (flags ++ [streaming])[a.cells.size]? = some streaming := by
    rw [← ha.size]
    exact List.getElem?_concat_length
  have hrun : (Program.newCell handler).run a = (a.cells.size, made) := rfl
  obtain ⟨hflagged, hcases⟩ := hmade.sendCmdFrom handler.side cmd hflag
  rw [Program.sendCmd, run_bind, hrun, run_bind]
  rcases hcases with ⟨e, hanswer, huntouched⟩ | ⟨id, hanswer, hcounters, htaken⟩
  · rw [hanswer]
    exact ⟨hflagged, Or.inl ⟨e, rfl, huntouched.counters, huntouched.taken, huntouched.entries,
      huntouched.worker⟩⟩
  · rw [hanswer]
    exact ⟨hflagged.unmoved ⟨rfl, fun _ => rfl, rfl⟩, Or.inr ⟨id, rfl, hcounters, htaken⟩⟩

theorem Flagged.spares_sendCmd (ha : a.Flagged flags) (handler : Handler) (cmd : Cmd)
    (streaming : Bool) : Spares a (Program.sendCmd handler cmd streaming) := by
  intro e he
  obtain ⟨-, ⟨-, -, huntouched⟩ | ⟨id, hid, -⟩⟩ := ha.sendCmd handler cmd streaming
  · exact huntouched
  · cases hid.symm.trans he

/-- A message that a worker refuses changes nothing. -/
theorem spares_forward (a : App) (side : Side) (msg : Message) :
    Spares a (Program.forward side msg) := by
  intro e h
  have hexecute (task : Task Job)
      (h : (((Program.worker side).step (·.accept task)).run a).1 = .error e) :
      Untouched a (((Program.worker side).step (·.accept task)).run a).2 := by
    have hrun : ((Program.worker side).step (·.accept task)).run a =
        (((a.worker side).accept task).1, a.setWorker side ((a.worker side).accept task).2) := rfl
    rw [hrun] at h ⊢
    rw [Worker.accept] at h ⊢
    split
    · next haccepting =>
      rw [if_pos haccepting] at h
      cases h
    · cases side
      · exact .refl a
      · exact .refl a
  unfold Program.forward at h ⊢
  split at h
  · exact .refl a
  · exact hexecute _ h

/-- A message that cannot be sent changes nothing. -/
theorem spares_sendThrough (a : App) (p : Outlet Side) (msg : Message) :
    Spares a (p.send Program.fabric msg) := by
  intro e h
  have hget : Program.fabric.router.get.run a = (a.router, a) := rfl
  unfold Outlet.send at h ⊢
  split
  · exact .refl a
  · next hkind =>
    rw [if_neg hkind] at h
    cases hvalid : msg.validate with
    | error invalid => exact .refl a
    | ok _ =>
      rw [hvalid] at h
      dsimp only at h ⊢
      rw [run_bind, hget] at h ⊢
      cases hopen : a.router.ensureOpen with
      | error fault => exact .refl a
      | ok _ =>
        rw [hopen] at h
        dsimp only at h ⊢
        rw [Fabric.forwardTo, run_bind, hget] at h ⊢
        cases hresolve : a.router.resolve (p.destination msg.dest) with
        | error fault => exact .refl a
        | ok side =>
          rw [hresolve] at h
          exact spares_forward a side _ e h

/-- A result that cannot be returned changes nothing. -/
theorem spares_returnThrough (a : App) (result : CmdResult) :
    Spares a (Program.fabric.returnResult result) := by
  intro e h
  rw [Fabric.returnResult] at h ⊢
  split
  · exact .refl a
  · exact .refl a
  · next id hvalid hid =>
    rw [hvalid, hid] at h
    cases h

/-- A call of the tester that fails is not counted. -/
theorem spares_counted {call : Program (Except Fault Unit)} (hcall : ∀ b, Spares b call) (a : App)
    (f : Counters → Counters) (completion : Option Completion) :
    Spares a (Program.counted call f completion) := by
  intro e h
  rw [Program.counted, run_bind, run_during] at h ⊢
  cases hanswer : (call.run { a with pool := a.pool.take }).1 with
  | error fault =>
    obtain ⟨hcounters, htaken, hentries, hworker⟩ := hcall _ fault hanswer
    exact ⟨hcounters, htaken, hentries, hworker⟩
  | ok _ =>
    rw [hanswer] at h
    cases completion with
    | none => cases h
    | some completion => cases h

theorem spares_send (a : App) (side : Side) (msg : Message) (completion : Option Completion) :
    Spares a (Program.send side msg completion) := by
  cases side with
  | engine => exact spares_sendThrough a (a.outlet .engine) msg
  | tester =>
    exact spares_counted (fun b => spares_sendThrough b (a.outlet .tester) msg) a _ completion

theorem spares_returnResult (a : App) (side : Side) (result : CmdResult)
    (completion : Option Completion) : Spares a (Program.returnResult side result completion) := by
  cases side with
  | engine => exact spares_returnThrough a result
  | tester => exact spares_counted (fun b => spares_returnThrough b result) a _ completion

end Sends

section Operations

/-- The flags of the commands that are sent by an operation: whether they are streaming. -/
def Operation.flags : Operation → List Bool
  | sendCmd _ _ streaming => [streaming]
  | send .. | returnResult _ | complete _ | stop | await | acknowledge _ => []

/-- Whatever is performed, commands are counted and taken only when they are sent. -/
theorem Operation.tallies {flags : List Bool} {op : Operation} (hop : op.flags = []) :
    Tallies flags _ op.perform := by
  cases op with
  | sendCmd handler cmd streaming => cases hop
  | send p msg => exact composes_tallies.send fits_tallies.toReaches p msg
  | returnResult result => exact composes_tallies.returnResult fits_tallies.complete result
  | complete completion => exact tallies_accept .tester nofun
  | stop =>
    exact tallies_beginStop (composes_tallies.bind (tallies_tearDown "test stopped") fun _ =>
      composes_tallies.pure _)
  | await => exact tallies_accept .tester nofun
  | acknowledge callback => exact tallies_lifecycle_step _

end Operations

end App
end Switchboard
