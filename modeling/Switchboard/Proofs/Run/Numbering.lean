import Switchboard.Proofs.Router.OneWay
import Switchboard.Proofs.Run.Dealings
/-!
# Numbers of what is handed over

A command that is handed over has the next id, which is used up by that, and nothing is queued that
brings an outcome. All else that is handed over has none. In an application whose router is open the
extension is always heard: what it sends to the tester is handed over, as long as the next id is not
in use.
-/
namespace Switchboard.App

section Numbers

variable {a : App}

/-- What comes of a command that is handed over under an id. -/
structure Numbered (id : RequestId) (a a' : App) : Prop where
  eq : id = ⟨a.router.table.nextId⟩
  nextId : a'.router.table.nextId = a.router.table.nextId + 1
  tasks : ∀ side, ∃ more, (a'.worker side).queue = (a.worker side).queue ++ more ∧
    ∀ task ∈ more, isPlain false task = true

/-- An outlet sends a command that is handed over. -/
theorem numbered_sendThrough (ha : a.router.table.Sharded) (p : Outlet Side) (cmd : Cmd) (i : Nat)
    (streaming : Bool) {id : RequestId}
    (hanswer : ((p.sendCmd Program.fabric cmd i streaming).run a).1 = .ok id)
    (hhanded : (a.handing? (p.destination cmd.dest)
      (.cmd (cmd.stamped id p.src (p.destination cmd.dest)))).isSome = true) :
    Numbered id a ((p.sendCmd Program.fabric cmd i streaming).run a).2 := by
  let request : PendingRequest Nat Side := { continuation := i, executor := p.executor, streaming }
  rcases Fabric.run_sendCmd Program.fabric (fun _ => rfl) p cmd i streaming a with
    ⟨e, hrun⟩ | ⟨e, -, hrun⟩ | ⟨id', haccepted, hrun⟩
  · rw [hrun] at hanswer
    cases hanswer
  · rw [hrun] at hanswer
    cases hanswer
  · rw [hrun] at hanswer ⊢
    obtain rfl : id' = id := Except.ok.inj hanswer
    rcases Router.accept_cases ha request with ⟨id, hid, haccepts⟩ | ⟨e, hrefused, -⟩
    · obtain rfl : id = id' := Except.ok.inj (hid.symm.trans haccepted)
      set b := ((Program.fabric.router.step (·.accept request)).run a).2
      set dest := p.destination cmd.dest
      have hb : Hands none a b := hands_of_same rfl rfl rfl rfl fun _ => rfl
      obtain ⟨-, hforwarded⟩ := hands_forwardTo b dest (.cmd (cmd.stamped id p.src dest))
      have hok := hforwarded.mpr (by rwa [hb.handing?])
      have hadds : Adds (isPlain false · = true) _
          (Program.fabric.forwardTo dest (.cmd (cmd.stamped id p.src dest))) :=
        composes_adds.forwardTo reaches_adds dest _
      have hrouter := hadds.router b
      have hqueue := hadds.queue b
      generalize (Program.fabric.forwardTo dest (.cmd (cmd.stamped id p.src dest))).run b = forwarded
        at hok hrouter hqueue ⊢
      obtain ⟨answer, c⟩ := forwarded
      cases hok
      exact ⟨haccepts.allocated, (congrArg (·.table.nextId) hrouter).trans haccepts.nextId, hqueue⟩
    · cases hrefused.symm.trans haccepted

/-- Who gets a message depends on endpoints and on who takes tasks. -/
theorem handing?_of_same {b : App} (hrouter : b.router = a.router)
    (hworker : ∀ side, b.worker side = a.worker side) (dest : Loc) (msg : Message) :
    b.handing? dest msg = a.handing? dest msg := by
  have hreceiver : b.receiver? dest msg = a.receiver? dest msg := by
    rw [Option.ext_iff]
    intro side
    rw [receiver?_eq_some_iff, receiver?_eq_some_iff, run_forward_eq_ok_iff, run_forward_eq_ok_iff,
      hrouter, hworker]
  rw [handing?, handing?, hreceiver]

/-- Data and frames have no id; a command that is handed over has a new one. -/
theorem Operation.numbered (op : Operation) (ha : a.router.table.Sharded) {side : Side}
    {msg : Message} (h : op.handed? a (op.perform.run a).1 = some (side, msg)) :
    msg.kind.isOneWay = true ∨
      ∃ handler cmd streaming sent id, op = .sendCmd handler cmd streaming ∧
        ((Program.sendCmd handler cmd streaming).run a).1 = .ok id ∧ msg = .cmd sent ∧
        sent.requestId = some id ∧ Numbered id a ((Program.sendCmd handler cmd streaming).run a).2 := by
  cases op with
  | send p msg' =>
    refine Or.inl ?_
    change Operation.handed? a (.send p msg') ((p.send Program.fabric msg').run a).1 = _ at h
    cases hkind : msg'.kind.isOneWay with
    | false =>
      have hrefused : ∃ e, ((p.send Program.fabric msg').run a).1 = .error e := by
        rw [Outlet.send, hkind]
        exact ⟨_, rfl⟩
      obtain ⟨e, hanswer⟩ := hrefused
      rw [hanswer] at h
      cases h
    | true =>
      cases hanswer : ((p.send Program.fabric msg').run a).1 with
      | error e =>
        rw [hanswer] at h
        cases h
      | ok _ =>
        rw [hanswer] at h
        obtain ⟨receiver, -, heq⟩ := Option.map_eq_some_iff.mp h
        obtain ⟨-, rfl⟩ := Prod.mk.inj heq
        rw [Message.kind_withDest, hkind]
  | sendCmd handler cmd streaming =>
    refine Or.inr ?_
    obtain ⟨entered, hrouter, -, hworker, hanswer, hrouter', -, hworker'⟩ :=
      exists_sendThrough a handler cmd streaming
    change Operation.handed? a (.sendCmd handler cmd streaming)
      ((Program.sendCmd handler cmd streaming).run a).1 = _ at h
    rw [hanswer] at h
    generalize hthrough :
      ((a.outlet handler.side).sendCmd Program.fabric cmd a.cells.size streaming).run entered =
        through at h hrouter' hworker' hanswer
    cases hid : through.1 with
    | error e =>
      rw [hid] at h
      cases h
    | ok id =>
      rw [hid, handed?] at h
      have hhanded := h
      obtain ⟨receiver, -, heq⟩ := Option.map_eq_some_iff.mp h
      obtain ⟨-, rfl⟩ := Prod.mk.inj heq
      refine ⟨handler, cmd, streaming, _, id, rfl, hanswer.trans hid, rfl, rfl, ?_⟩
      have hnumbered := numbered_sendThrough (hrouter ▸ ha) (a.outlet handler.side) cmd a.cells.size
        streaming (a := entered) (by rw [hthrough, hid])
        (by rw [handing?_of_same hrouter hworker, hhanded]; rfl)
      rw [hthrough] at hnumbered
      constructor
      · rw [← hrouter]
        exact hnumbered.eq
      · exact (congrArg (·.table.nextId) hrouter').trans (hrouter ▸ hnumbered.nextId)
      · intro side
        obtain ⟨more, hqueue, hmore⟩ := hnumbered.tasks side
        refine ⟨more, ?_, hmore⟩
        rw [hworker', hqueue, hworker]
  | returnResult result => cases h
  | complete completion => cases h
  | stop => cases h
  | await => cases h
  | acknowledge callback => cases h

end Numbers

section Sends

variable {a : App}

/-- A router whose table is open takes a request, unless the next id is in use. -/
theorem fst_accept_of_free {r : Router Nat Side Side} (hopen : r.table.closed = false)
    (hfree : r.table.contains ⟨r.table.nextId⟩ = false) (request : PendingRequest Nat Side) :
    (r.accept request).1 = .ok ⟨r.table.nextId⟩ := by
  have hopen' : r.table.allocate.2.closed = false := hopen
  have hfree' : r.table.allocate.2.contains ⟨r.table.nextId⟩ = false := hfree
  have hregister : (r.table.allocate.2.register ⟨r.table.nextId⟩ request).1 = .ok () := by
    rw [PendingTable.register, hopen', hfree']
    rfl
  change (r.table.allocate.2.register ⟨r.table.nextId⟩ request).1.map _ = _
  rw [hregister]
  rfl

theorem ensureOpen_of_open {r : Router Nat Side Side} (hopen : r.closed = false) :
    r.ensureOpen = .ok () := by
  rw [Router.ensureOpen, hopen]
  rfl

/-- In an open application a command with a name is accepted, unless the next id is in use. -/
theorem fst_run_sendCmd (hopen : a.router.closed = false) (htable : a.router.table.closed = false)
    (hfree : a.router.table.contains ⟨a.router.table.nextId⟩ = false) (handler : Handler) {cmd : Cmd}
    (hname : cmd.name ≠ "") (streaming : Bool) :
    ((Program.sendCmd handler cmd streaming).run a).1 = .ok ⟨a.router.table.nextId⟩ := by
  obtain ⟨entered, hrouter, -, -, hanswer, -, -, -⟩ := exists_sendThrough a handler cmd streaming
  rw [← hrouter] at hopen htable hfree
  rw [hanswer, ← hrouter]
  let request : PendingRequest Nat Side :=
    { continuation := a.cells.size, executor := (a.outlet handler.side).executor, streaming }
  have hvalid : cmd.validate = .ok () := if_neg hname
  have hget : Program.fabric.router.get.run entered = (entered.router, entered) := rfl
  have haccept : (Program.fabric.router.step (·.accept request)).run entered =
      (.ok ⟨entered.router.table.nextId⟩,
        { entered with router := (entered.router.accept request).2 }) :=
    congrArg (·, _) (fst_accept_of_free htable hfree request)
  rw [Outlet.sendCmd, hvalid]
  dsimp only
  rw [run_bind, hget]
  dsimp only
  rw [ensureOpen_of_open hopen]
  dsimp only
  rw [run_bind, haccept]
  dsimp only
  rw [run_bind]
  -- whatever becomes of forwarding, the request was accepted
  split
  · rfl
  · rfl

/-- In an open application a message with a name is sent, if somebody gets it. -/
theorem fst_run_send (hopen : a.router.closed = false) {msg : Message}
    (hkind : msg.kind.isOneWay = true) (hname : msg.name ≠ "") (p : Outlet Side)
    (hhanded : (a.handing? (p.destination msg.dest)
      (msg.withDest (p.destination msg.dest))).isSome = true) :
    ((p.send Program.fabric msg).run a).1 = .ok () := by
  have hget : Program.fabric.router.get.run a = (a.router, a) := rfl
  rw [Outlet.send, hkind, Message.validate_of_isOneWay hkind, if_neg hname]
  change ((Program.fabric.router.get >>= _ : Program _).run a).1 = _
  rw [run_bind, hget]
  dsimp only
  rw [ensureOpen_of_open hopen]
  exact (hands_forwardTo a _ _).2.mpr hhanded

end Sends
end Switchboard.App
