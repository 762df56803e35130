import Switchboard.Proofs.Run.Cues
/-!
# What the extension says

While the router is open all that the extension sends is handed to the tester, in the order of the
cues that made it plan so. Meanwhile every command that is handed over has an id of its own, as long
as there are ids left.
-/
namespace Switchboard.App

/-- What an operation sends. -/
def Operation.announces : Operation → List Message
  | sendCmd _ cmd _ => [.cmd cmd]
  | send _ msg => [msg]
  | returnResult _ | complete _ | stop | await | acknowledge _ => []

theorem announces_saying (a : App) (msg : Message) : (a.saying msg).announces = [msg] := by
  cases msg <;> rfl

namespace Cue

/-- What is planned announces what the extension replies. -/
theorem flatMap_announces_plan (a : App) (cue : Cue) :
    (cue.plan a).flatMap Operation.announces = cue.replies a.greeting := by
  have hresults (results : List CmdResult) :
      (results.map Operation.returnResult).flatMap Operation.announces = [] := by
    induction results with
    | nil => rfl
    | cons result results ih => exact ih
  have hreplies (msgs : List Message) : (msgs.map a.saying).flatMap Operation.announces = msgs := by
    induction msgs with
    | nil => rfl
    | cons msg msgs ih => rw [List.map_cons, List.flatMap_cons, announces_saying, ih]; rfl
  rw [plan, List.flatMap_append, hresults, hreplies, List.nil_append]

end Cue

section Said

variable {a : App}

theorem handing?_tester {extension : String} (hroutes : a.router.routes = bothRoutes extension)
    (haccepting : (a.worker .tester).accepting = true) (msg : Message)
    (hmsg : msg.kind ≠ .cmdResult) : a.handing? .tester msg = some (.tester, msg) := by
  have hreceiver : a.receiver? .tester msg = some .tester := by
    refine receiver?_eq_some_iff.mpr ⟨?_, (run_forward_eq_ok_iff a .tester msg).mpr ⟨?_, haccepting⟩⟩
    · rw [Router.resolve, Router.endpoint?, hroutes]
      rfl
    · rintro result rfl
      exact hmsg rfl
  rw [handing?, hreceiver]
  rfl

/-- While the router is open, whatever the extension says reaches the tester. -/
theorem handed_saying {extension : String} (hopen : a.router.closed = false)
    (htable : a.router.table.closed = false) (hroutes : a.router.routes = bothRoutes extension)
    (haccepting : (a.worker .tester).accepting = true)
    (hfree : a.router.table.contains ⟨a.router.table.nextId⟩ = false) {msg : Message}
    (hmsg : msg.Plain) :
    ∃ sent, (a.saying msg).handed? a ((a.saying msg).perform.run a).1 = some (.tester, sent) ∧
      sent.bare = msg := by
  have honeway {msg : Message} (hmsg : msg.Plain) (hkind : msg.kind.isOneWay = true) :
      ∃ sent, Operation.handed? a (.send (a.outlet .engine) msg)
        (((a.outlet .engine).send Program.fabric msg).run a).1 = some (.tester, sent) ∧
        sent.bare = msg := by
    have hhanded := handing?_tester hroutes haccepting (msg.withDest .tester)
      (by rw [Message.kind_withDest]; exact hmsg.kind)
    have hdest : (a.outlet .engine).destination msg.dest = .tester := by
      rw [hmsg.dest]
      rfl
    have hanswer := fst_run_send hopen hkind hmsg.name (a.outlet .engine)
      (by rw [hdest, hhanded]; rfl)
    refine ⟨msg.withDest .tester, ?_, (msg.bare_withDest .tester).trans hmsg.bare⟩
    rw [hanswer, Operation.handed?, hdest, hhanded]
  cases msg with
  | cmd cmd =>
    have hdest : (a.outlet .engine).destination cmd.dest = .tester := by
      have hnone : cmd.dest = none := hmsg.dest
      rw [hnone]
      rfl
    have hanswer := fst_run_sendCmd hopen htable hfree .silent hmsg.name false
    refine ⟨.cmd (cmd.stamped ⟨a.router.table.nextId⟩ a.extensionLoc .tester), ?_, hmsg.bare⟩
    change Operation.handed? a (.sendCmd .silent cmd false)
      ((Program.sendCmd .silent cmd false).run a).1 = _
    rw [hanswer, Operation.handed?]
    change a.handing? ((a.outlet .engine).destination cmd.dest)
      (.cmd (cmd.stamped _ a.extensionLoc ((a.outlet .engine).destination cmd.dest))) = _
    rw [hdest]
    exact handing?_tester hroutes haccepting _ (by rw [Message.kind]; decide)
  | cmdResult result => exact (hmsg.kind rfl).elim
  | data data => exact honeway hmsg rfl
  | audioFrame frame => exact honeway hmsg rfl
  | videoFrame frame => exact honeway hmsg rfl

end Said

/-- At most one message is handed to a side at once. -/
theorem Deed.handed_cases (s : Scene) (deed : Deed) (side : Side) :
    deed.handed s side = [] ∨ ∃ msg, deed.handed s side = [msg] := by
  cases deed with
  | giveUp => exact Or.inl rfl
  | act act =>
    cases act with
    | operate op =>
      rw [Deed.handed]
      cases op.handed? s.app (op.perform.run s.app).1 with
      | none => exact Or.inl rfl
      | some handed =>
        rw [share]
        split
        · exact Or.inr ⟨_, rfl⟩
        · exact Or.inl rfl
    | note | take | finish | call | proceed => exact Or.inl rfl

/-- What is handed to a side is what an operation hands to it. -/
theorem Deed.mem_handed {s : Scene} {deed : Deed} {side : Side} {msg : Message}
    (h : msg ∈ deed.handed s side) :
    ∃ op, deed = .act (.operate op) ∧
      op.handed? s.app (op.perform.run s.app).1 = some (side, msg) := by
  cases deed with
  | giveUp => cases h
  | act act =>
    cases act with
    | operate op =>
      refine ⟨op, rfl, ?_⟩
      rw [Deed.handed] at h
      cases hhanded : op.handed? s.app (op.perform.run s.app).1 with
      | none =>
        rw [hhanded] at h
        cases h
      | some handed =>
        obtain ⟨other, msg'⟩ := handed
        rw [hhanded, share] at h
        split at h
        · next heq => rw [heq, List.mem_singleton.mp h]
        · cases h
    | note | take | finish | call | proceed => cases h

namespace Parley

/-- Fewer commands were sent than there are ids. -/
def Roomy (p : Parley) : Prop := p.scene.app.cells.size < UInt64.size - 1

/-- No id is used twice: those that wait or were handed over are below the next one, and no two
messages that were handed over have the same. -/
structure Distinct (p : Parley) : Prop where
  waiting : ∀ e ∈ p.scene.app.router.table.entries, e.1.value < p.scene.app.router.table.nextId
  told : ∀ x ∈ p.told, ∀ id, x.2.requestId = some id → id.value < p.scene.app.router.table.nextId
  got : ∀ msg ∈ p.got, ∀ id, msg.requestId = some id → id.value < p.scene.app.router.table.nextId
  once : p.told.Pairwise fun x y => ∀ id, x.2.requestId = some id → y.2.requestId ≠ some id
  apart : ∀ x ∈ p.told, ∀ msg ∈ p.got, ∀ id, x.2.requestId = some id → msg.requestId ≠ some id

section Distinct

variable {extension : String} {properties : Json} {p : Parley} {s : Scene} {deed : Deed}
  {plan : List Operation} {said : List Message}

/-- Ids only grow, as long as there are some left. -/
theorem Standing.nextId_undergo (h : p.Standing extension properties)
    (hdeed : p.scene.undergo deed = some s) (hopen : s.app.router.closed = false)
    (hroomy : s.app.cells.size < UInt64.size - 1) :
    let next := p.scene.app.router.table.nextId
    let next' := s.app.router.table.nextId
    next ≤ next' ∧ (next' = next + 1 → next < next') := by
  intro next next'
  obtain ⟨owners, hlasting⟩ := h.lasting
  have hdeals := (hlasting.deals hdeed hopen).nextId
  rw [deed.router_relieved p.scene] at hdeals
  have hbound : next.toNat ≤ p.scene.app.cells.size + 1 := h.nextId
  have hsucc : (next + 1).toNat = (next.toNat + 1) % 2 ^ 64 := UInt64.toNat_add next 1
  rcases hdeals with hsame | ⟨hnew, hlt⟩
  · refine ⟨Nat.le_of_eq (congrArg UInt64.toNat hsame.symm), fun heq => ?_⟩
    have hwraps : next.toNat = (next + 1).toNat := congrArg UInt64.toNat (hsame.symm.trans heq)
    omega
  · have hgrows : next.toNat < next'.toNat := by
      have hnew' : next'.toNat = (next + 1).toNat := congrArg UInt64.toNat hnew
      have hsize : UInt64.size = 2 ^ 64 := rfl
      omega
    exact ⟨Nat.le_of_lt hgrows, fun _ => hgrows⟩

/-- The id of whatever is handed over is new. -/
theorem Standing.fresh (h : p.Standing extension properties)
    (hdeed : p.scene.undergo deed = some s) {side : Side} {msg : Message}
    (hmsg : msg ∈ deed.handed p.scene side) {id : RequestId} (hid : msg.requestId = some id) :
    id = ⟨p.scene.app.router.table.nextId⟩ ∧
      s.app.router.table.nextId = p.scene.app.router.table.nextId + 1 := by
  obtain ⟨op, rfl, hhanded⟩ := Deed.mem_handed hmsg
  obtain ⟨owners, hlasting⟩ := h.lasting
  cases hdeed
  rcases op.numbered hlasting.accounted.placed.sharded hhanded with
    honeway | ⟨handler, cmd, streaming, sent, id', rfl, -, rfl, hid', hnumbered⟩
  · cases msg with
    | cmd | cmdResult => cases honeway
    | data | audioFrame | videoFrame => cases hid
  · obtain rfl : id' = id := Option.some.inj (hid'.symm.trans hid)
    exact ⟨hnumbered.eq, hnumbered.nextId⟩

/-- What the extension was told afterwards it was told before, or it is handed now. -/
theorem mem_told_after {x : Nat × Message} (hx : x ∈ (p.after deed plan said s).told) :
    x ∈ p.told ∨ ∃ msg ∈ deed.handed p.scene .engine, x = (p.scene.app.cells.size, msg) := by
  rcases List.mem_append.mp hx with hold | hnew
  · exact Or.inl hold
  · obtain ⟨msg, hmsg, rfl⟩ := List.mem_map.mp hnew
    exact Or.inr ⟨msg, hmsg, rfl⟩

/-- Not both sides are handed a message at once. -/
theorem eq_of_mem_handed {side side' : Side} {msg msg' : Message}
    (h : msg ∈ deed.handed p.scene side) (h' : msg' ∈ deed.handed p.scene side') : side = side' := by
  obtain ⟨op, rfl, hhanded⟩ := Deed.mem_handed h
  obtain ⟨op', hop, hhanded'⟩ := Deed.mem_handed h'
  cases hop
  exact (Prod.mk.inj (Option.some.inj (hhanded.symm.trans hhanded'))).1

/-- A message that the extension was told is known by its id. -/
theorem Distinct.eq_of_requestId (h : p.Distinct) {x y : Nat × Message} (hx : x ∈ p.told)
    (hy : y ∈ p.told) {id : RequestId} (hidx : x.2.requestId = some id)
    (hidy : y.2.requestId = some id) : x = y := by
  have : Std.Symm fun x y : Nat × Message =>
      ∀ id, x.2.requestId = some id → y.2.requestId ≠ some id :=
    ⟨fun _ _ hxy id hidy hidx => hxy id hidx hidy⟩
  by_contra hne
  exact h.once.forall hx hy hne id hidx hidy

theorem Distinct.after (h : p.Distinct) (hstanding : p.Standing extension properties)
    (hdeed : p.scene.undergo deed = some s) (hopen : s.app.router.closed = false)
    (hroomy : (p.after deed plan said s).Roomy) : (p.after deed plan said s).Distinct := by
  have hscene := p.scene_after deed plan said s
  rw [Roomy, hscene] at hroomy
  obtain ⟨hle, hlt⟩ := hstanding.nextId_undergo hdeed hopen hroomy
  obtain ⟨owners, hlasting⟩ := hstanding.lasting
  have hentries := (hlasting.deals hdeed hopen).entries
  rw [deed.router_relieved p.scene] at hentries
  have hrouter : (p.after deed plan said s).scene.app.router = s.app.router := by rw [hscene]
  have hnew {side : Side} {msg : Message} (hmsg : msg ∈ deed.handed p.scene side) {id : RequestId}
      (hid : msg.requestId = some id) : ¬ id.value < p.scene.app.router.table.nextId ∧
        id.value < s.app.router.table.nextId := by
    obtain ⟨rfl, hnext⟩ := hstanding.fresh hdeed hmsg hid
    exact ⟨UInt64.lt_irrefl _, hlt hnext⟩
  constructor
  · rw [hrouter]
    intro e he
    rcases hentries e he with hold | ⟨heq, -, hnext⟩
    · exact UInt64.lt_of_lt_of_le (h.waiting e hold) hle
    · rw [heq]
      exact hlt hnext
  · rw [hrouter]
    intro x hx id hid
    rcases mem_told_after hx with hold | ⟨msg, hmsg, rfl⟩
    · exact UInt64.lt_of_lt_of_le (h.told x hold id hid) hle
    · exact (hnew hmsg hid).2
  · rw [hrouter]
    intro msg hmsg id hid
    rcases List.mem_append.mp hmsg with hold | hmsg
    · exact UInt64.lt_of_lt_of_le (h.got msg hold id hid) hle
    · exact (hnew hmsg hid).2
  · refine List.pairwise_append.mpr ⟨h.once, ?_, fun x hx y hy id hidx hidy => ?_⟩
    · rcases deed.handed_cases p.scene .engine with hnone | ⟨msg, hone⟩
      · rw [hnone]
        exact .nil
      · rw [hone]
        exact List.pairwise_singleton _ _
    · obtain ⟨msg, hmsg, rfl⟩ := List.mem_map.mp hy
      exact (hnew hmsg hidy).1 (h.told x hx id hidx)
  · intro x hx msg hmsg id hidx hid
    rcases mem_told_after hx with hx | ⟨msgx, hmsgx, rfl⟩
    · rcases List.mem_append.mp hmsg with hold | hmsg
      · exact h.apart x hx msg hold id hidx hid
      · exact (hnew hmsg hid).1 (h.told x hx id hidx)
    · rcases List.mem_append.mp hmsg with hold | hmsg
      · exact (hnew hmsgx hidx).1 (h.got msg hold id hid)
      · cases eq_of_mem_handed hmsgx hmsg

end Distinct

/-- What the extension has said, without the addresses, and what it still plans to say is what it
replies to the cues that it has had. -/
def Voiced (properties : Json) (p : Parley) : Prop :=
  p.said.map Message.bare ++ p.plan.flatMap Operation.announces =
    p.cues.flatMap (Cue.replies (Responder.greetingOf properties))

section Voiced

variable {extension : String} {properties : Json} {p p' : Parley}

/-- While the router is open both workers take tasks. -/
theorem Standing.accepting (h : p.Standing extension properties) (side : Side) :
    (p.scene.app.worker side).accepting = true := by
  obtain ⟨owners, hlasting⟩ := h.lasting
  cases haccepting : (p.scene.app.worker side).accepting with
  | true => rfl
  | false =>
    have hclosed := (hlasting.accounted.sound.shut side haccepting).1
    rw [h.table] at hclosed
    cases hclosed

/-- Nothing waits under the next id. -/
theorem Standing.free (h : p.Standing extension properties) (hdistinct : p.Distinct) :
    p.scene.app.router.table.contains ⟨p.scene.app.router.table.nextId⟩ = false := by
  obtain ⟨owners, hlasting⟩ := h.lasting
  rw [PendingTable.contains]
  cases hfind : p.scene.app.router.table.find? ⟨p.scene.app.router.table.nextId⟩ with
  | none => rfl
  | some request =>
    have hmem := (hlasting.accounted.placed.sharded.find?_eq_some_iff _ request).mp hfind
    exact absurd (hdistinct.waiting _ hmem) (UInt64.lt_irrefl _)

/-- The extension says just what it was to say next. -/
theorem Standing.said_does (h : p.Standing extension properties) (hdistinct : p.Distinct)
    {deed : Deed} {plan : List Operation} {said : List Message} (hdoes : p.Does deed plan said) :
    said.map Message.bare ++ plan.flatMap Operation.announces =
      p.plan.flatMap Operation.announces := by
  cases hdoes with
  | other => rfl
  | @reply op plan hplan =>
    rw [hplan, List.flatMap_cons]
    congr 1
    cases h.planned op (hplan ▸ List.mem_cons_self) with
    | answer => rfl
    | @say msg hmsg =>
      obtain ⟨sent, hhanded, hbare⟩ := handed_saying h.opened h.table h.routes (h.accepting .tester)
        (h.free hdistinct) hmsg
      rw [announces_saying, Deed.handed, hhanded, share, if_pos rfl, List.map_singleton, hbare]

theorem Voiced.step (h : p.Voiced properties) (hstanding : p.Standing extension properties)
    (hdistinct : p.Distinct) {part : Part} (hstep : p.step part = some p') : p'.Voiced properties := by
  have hgreeting := (hstanding.step hstep).greeting
  obtain ⟨deed, plan, said, s, hdoes, -, -, -, rfl⟩ := step_eq_some hstep
  set app := (deed.cues p.scene).foldl cued s.app
  have hplanned : ((deed.cues p.scene).flatMap (Cue.plan app)).flatMap Operation.announces =
      (deed.cues p.scene).flatMap (Cue.replies (Responder.greetingOf properties)) := by
    rcases deed.cues_cases p.scene with hnone | ⟨cue, hone⟩
    · rw [hnone]
      rfl
    · have hcues : p.cues ++ deed.cues p.scene ≠ [] := by
        rw [hone]
        exact List.append_ne_nil_of_right_ne_nil _ (List.cons_ne_nil _ _)
      have hheld : app.greeting = Responder.greetingOf properties := hgreeting hcues
      rw [hone, List.flatMap_singleton, List.flatMap_singleton, Cue.flatMap_announces_plan, hheld]
  have hsaid := hstanding.said_does hdistinct hdoes
  change (p.said ++ said).map Message.bare ++
    (plan ++ (deed.cues p.scene).flatMap (Cue.plan app)).flatMap Operation.announces = _
  calc (p.said ++ said).map Message.bare ++
        (plan ++ (deed.cues p.scene).flatMap (Cue.plan app)).flatMap Operation.announces
    _ = p.said.map Message.bare ++ (said.map Message.bare ++ plan.flatMap Operation.announces) ++
        (deed.cues p.scene).flatMap (Cue.replies (Responder.greetingOf properties)) := by
      rw [List.map_append, List.flatMap_append, hplanned]
      simp only [List.append_assoc]
    _ = (p.cues ++ deed.cues p.scene).flatMap (Cue.replies (Responder.greetingOf properties)) := by
      rw [hsaid, h, List.flatMap_append]

end Voiced

end Parley
end Switchboard.App
