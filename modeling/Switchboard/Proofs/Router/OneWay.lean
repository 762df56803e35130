import Switchboard.Proofs.Router.Station
/-!
# Messages that are sent one way

Data and frames are sent without waiting for an answer. Among quiet neighbours a message that is
not refused reaches the endpoint of its destination once, with nothing changed but that the
destination is filled in. The router never takes part: whatever becomes of the message, it stays as
it is, and no executor is handed anything.
-/
namespace Switchboard

variable {κ ε η τ : Type}

namespace Message

/-- A message of each kind that is sent one way, and the same with another destination. -/
inductive Readdressed (dest : Loc) : Message → Message → Prop
  | data (name : String) (payload : Payload) (named : Option Loc) :
    Readdressed dest (.data ⟨name, payload, named⟩) (.data ⟨name, payload, some dest⟩)
  | audioFrame (name : String) (payload : Payload) (timestamp : Int64) (sampleRate : UInt32)
      (channels : UInt16) (named : Option Loc) :
    Readdressed dest (.audioFrame ⟨name, payload, timestamp, sampleRate, channels, named⟩)
      (.audioFrame ⟨name, payload, timestamp, sampleRate, channels, some dest⟩)
  | videoFrame (name : String) (payload : Payload) (width height : UInt32) (timestamp : Int64)
      (named : Option Loc) :
    Readdressed dest (.videoFrame ⟨name, payload, width, height, timestamp, named⟩)
      (.videoFrame ⟨name, payload, width, height, timestamp, some dest⟩)

variable {msg : Message}

/-- A message that is sent one way keeps all of its fields but the destination. -/
theorem readdressed_withDest (h : msg.kind.isOneWay = true) (dest : Loc) :
    Readdressed dest msg (msg.withDest dest) := by
  cases msg with
  | cmd c => cases h
  | cmdResult r => cases h
  | data d => exact .data d.name d.payload d.dest
  | audioFrame f =>
    exact .audioFrame f.name f.payload f.timestamp f.sampleRate f.channels f.dest
  | videoFrame f => exact .videoFrame f.name f.payload f.width f.height f.timestamp f.dest

/-- All that a message needs that is sent one way is a name. -/
theorem validate_of_isOneWay (h : msg.kind.isOneWay = true) :
    msg.validate = if msg.name = "" then .error ⟨msg.kind, .nameMissing⟩ else .ok () := by
  cases msg with
  | cmd c => cases h
  | cmdResult r => cases h
  | data d => rfl
  | audioFrame f => rfl
  | videoFrame f => rfl

end Message

/-- Why a router refuses to send a message one way to a location, if it does: the first reason that
there is. -/
def Router.oneWayRefusal? (r : Router κ ε η) (msg : Message) (dest : Loc) : Option Fault :=
  if msg.kind.isOneWay = false then
    some (.invalidArgument (msg.kind.text ++ " cannot be sent as a one-way message"))
  else if msg.name = "" then
    some (.invalidArgument ("invalid " ++ msg.kind.text ++ ": name is required"))
  else if r.closed then some (.dispatchFailure "router is closed")
  else if r.hasRoute dest = false then some (.dispatchFailure ("no route to " ++ dest.text))
  else none

namespace Neighbours

variable (n : Neighbours κ ε η τ) (p : Outlet ε) (msg : Message) (x : Station κ ε η τ)

/-- A message with a name, of a kind that is sent one way, is forwarded by an open router. -/
theorem run_send_of_open (hkind : msg.kind.isOneWay = true) (hname : msg.name ≠ "")
    (hopen : x.router.closed = false) :
    (p.send n.fabric msg).run x =
      match x.router.endpoint? (p.destination msg.dest) with
      | none => (.error (.dispatchFailure ("no route to " ++ (p.destination msg.dest).text)), x)
      | some endpoint => x.pass n endpoint (msg.withDest (p.destination msg.dest)) := by
  rw [Outlet.send, Message.validate_of_isOneWay hkind, if_neg hname]
  simp only [hkind, Bool.not_true, Bool.false_eq_true, if_false]
  rw [n.fabric.run_get_bind n.run_get, Router.ensureOpen, hopen]
  exact n.run_forwardTo _ _ x

variable {n p msg x}

/-- A message that is refused leaves everything alone. -/
theorem run_send_of_refused {e : Fault}
    (h : x.router.oneWayRefusal? msg (p.destination msg.dest) = some e) :
    (p.send n.fabric msg).run x = (.error e, x) := by
  rw [Router.oneWayRefusal?] at h
  by_cases hkind : msg.kind.isOneWay = false
  · rw [if_pos hkind] at h
    obtain rfl := Option.some.inj h
    rw [Outlet.send, hkind]
    rfl
  rw [if_neg hkind] at h
  rw [Bool.not_eq_false] at hkind
  by_cases hname : msg.name = ""
  · rw [if_pos hname, ← Fault.ofInvalid_nameMissing] at h
    obtain rfl := Option.some.inj h
    rw [Outlet.send, Message.validate_of_isOneWay hkind, if_pos hname, hkind]
    rfl
  rw [if_neg hname] at h
  by_cases hclosed : x.router.closed = true
  · rw [if_pos hclosed] at h
    obtain rfl := Option.some.inj h
    rw [n.fabric.run_send_of_closed n.run_get hclosed, Message.refusal,
      Message.validate_of_isOneWay hkind, if_neg hname, hkind]
    rfl
  rw [if_neg hclosed] at h
  by_cases hroute : x.router.hasRoute (p.destination msg.dest) = false
  · rw [if_pos hroute] at h
    obtain rfl := Option.some.inj h
    have hnone : x.router.endpoint? (p.destination msg.dest) = none := by
      simpa [Router.hasRoute] using hroute
    rw [n.run_send_of_open p msg x hkind hname (Bool.not_eq_true _ |>.mp hclosed), hnone]
  · rw [if_neg hroute] at h
    cases h

/-- A message that is not refused has an endpoint, which gets it and decides. -/
theorem run_send_of_passed
    (h : x.router.oneWayRefusal? msg (p.destination msg.dest) = none) :
    msg.kind.isOneWay = true ∧
      ∃ endpoint, x.router.endpoint? (p.destination msg.dest) = some endpoint ∧
        (p.send n.fabric msg).run x =
          x.pass n endpoint (msg.withDest (p.destination msg.dest)) := by
  rw [Router.oneWayRefusal?] at h
  split_ifs at h with hkind hname hclosed hroute
  rw [Bool.not_eq_false] at hkind hroute
  rw [Bool.not_eq_true] at hclosed
  obtain ⟨endpoint, hendpoint⟩ := Option.isSome_iff_exists.mp hroute
  refine ⟨hkind, endpoint, hendpoint, ?_⟩
  rw [n.run_send_of_open p msg x hkind hname hclosed, hendpoint]

variable (n p msg x) in
/-- Sending a message one way among neighbours that leave the router alone, whatever the router has
come to.

If there is a reason to refuse the message, the first one is told: it is a command or a result, it
has no name, the router is closed, or no endpoint serves its destination, which is the default one
if it names none. Then nothing changes and nobody hears of it. Otherwise the endpoint hears of it
once and answers; what it hears is the message with its destination filled in. In no case does the
router change, and nothing is handed out to an executor. -/
theorem send_decides :
    let sent := (p.send n.fabric msg).run x
    let dest := msg.dest.getD p.defaultDest
    (∀ e, x.router.oneWayRefusal? msg dest = some e → sent = (.error e, x)) ∧
      (x.router.oneWayRefusal? msg dest = none → ∃ endpoint addressed,
        x.router.endpoint? dest = some endpoint ∧ msg.Readdressed dest addressed ∧
        sent.1 = (n.receive endpoint addressed x.outside).1 ∧
        sent.2 = { x with
          outside := (n.receive endpoint addressed x.outside).2
          received := x.received ++ [(endpoint, addressed)] }) ∧
      sent.2.router = x.router ∧ sent.2.handed = x.handed := by
  intro sent dest
  cases hreason : x.router.oneWayRefusal? msg dest with
  | some e =>
    have hsent : sent = (.error e, x) := run_send_of_refused hreason
    rw [hsent]
    exact ⟨fun e' he' => by rw [Option.some.inj he'], nofun, rfl, rfl⟩
  | none =>
    obtain ⟨hkind, endpoint, hendpoint, hsent⟩ :
        msg.kind.isOneWay = true ∧ ∃ endpoint, x.router.endpoint? dest = some endpoint ∧
          sent = x.pass n endpoint (msg.withDest dest) := run_send_of_passed hreason
    rw [hsent]
    refine ⟨nofun, fun _ => ⟨endpoint, msg.withDest dest, hendpoint, ?_, rfl, rfl⟩, rfl, rfl⟩
    exact Message.readdressed_withDest hkind dest

end Neighbours

end Switchboard
