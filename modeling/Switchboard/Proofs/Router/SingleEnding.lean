import Switchboard.Proofs.Router.Conduct
/-!
# A command that is sent ends once

While a command is forwarded its endpoint may end the request, and then refuse the command. However
that goes, the request has one ending at most when the send comes back, and it waits if and only if
it has none. What goes wrong in forwarding ends a request that still waits, and is forgotten if
something else has ended the request before.
-/
namespace Switchboard.Exchange

variable {κ ε η : Type} [DecidableEq κ]

/-- The endings of a continuation that are queued, oldest first. -/
def endingsOf (x : Exchange κ ε η) (c : κ × Nat) : List (Delivery (κ × Nat) ε) :=
  x.queued.filter (·.endsFor c)

/-- What is known of a request that was taken, until its mark is forgotten: it waits under its id or
it has one ending, and all deliveries to it are its own. -/
structure Tracks (id : RequestId) (request : PendingRequest (κ × Nat) ε) (x : Exchange κ ε η) :
    Prop where
  sharded : x.router.table.Sharded
  marked : request.continuation.2 < x.serial
  once : x.endingsFor request.continuation = 1
  waiting : ∀ e ∈ x.router.table.entries, e.2.continuation = request.continuation →
    e = (id, request)
  queued : ∀ d ∈ x.queued, d.continuation = request.continuation →
    d = request.deliver id d.outcome d.outcome.isTerminal

/-- A number that is not given out yet has no endings. -/
theorem Sound.endingsFor_eq_zero {x : Exchange κ ε η} (h : x.Sound) {c : κ × Nat}
    (hc : x.serial ≤ c.2) : x.endingsFor c = 0 := by
  refine Nat.add_eq_zero_iff.mpr ⟨List.countP_eq_zero.mpr ?_, List.countP_eq_zero.mpr ?_⟩
  · intro e he hmine
    have hold := h.waiting e he
    rw [of_decide_eq_true hmine] at hold
    omega
  · intro d hd hmine
    have hold := h.queued d hd
    rw [of_decide_eq_true (Bool.and_eq_true_iff.mp hmine).2] at hold
    omega

/-- A request with the next number is tracked from the moment when it is taken. -/
theorem tracks_enroll {x : Exchange κ ε η} (h : x.Sound) {id : RequestId}
    {request : PendingRequest (κ × Nat) ε} (hmark : request.continuation.2 = x.serial)
    (haccept : (x.router.accept request).1 = .ok id) :
    Tracks id request ({ x with serial := x.serial + 1 }.enroll request) := by
  rcases Router.accept_cases h.sharded request with ⟨id', hid, haccepts⟩ | ⟨e, hrefused, -⟩
  · obtain rfl : id' = id := Except.ok.inj (hid.symm.trans haccept)
    have hnone : x.endingsFor request.continuation = 0 :=
      h.endingsFor_eq_zero (Nat.le_of_eq hmark.symm)
    refine
      { sharded := haccepts.sharded
        marked := Nat.lt_succ_of_le (Nat.le_of_eq hmark)
        once := ?_, waiting := ?_, queued := ?_ }
    · change (x.router.accept request).2.table.waitingFor _ + Delivery.endings x.queued _ = 1
      rw [PendingTable.waitingFor, haccepts.entries.countP_eq, List.countP_cons_of_pos (by simp)]
      rw [endingsFor, PendingTable.waitingFor] at hnone
      omega
    · intro e he hmine
      rcases List.mem_cons.mp (haccepts.entries.mem_iff.mp he) with rfl | hold
      · rfl
      · have hold := h.waiting e hold
        rw [hmine] at hold
        omega
    · intro d hd hmine
      have hold := h.queued d hd
      rw [hmine] at hold
      omega
  · rw [hrefused] at haccept
    cases haccept

omit [DecidableEq κ] in
/-- A request that was taken waits under the id that was handed out last. -/
theorem find?_enroll {x : Exchange κ ε η} (h : x.router.table.Sharded) {id : RequestId}
    {request : PendingRequest (κ × Nat) ε} (haccept : (x.router.accept request).1 = .ok id) :
    (x.enroll request).router.table.find? id = some request ∧
      (x.enroll request).router.table.nextId = id.value + 1 := by
  rcases Router.accept_cases h request with ⟨id', hid, haccepts⟩ | ⟨e, hrefused, -⟩
  · obtain rfl : id' = id := Except.ok.inj (hid.symm.trans haccept)
    constructor
    · exact (haccepts.sharded.find?_eq_some_iff id' request).mpr
        (haccepts.entries.mem_iff.mpr List.mem_cons_self)
    · rw [haccepts.allocated]
      exact haccepts.nextId
  · rw [hrefused] at haccept
    cases haccept

namespace Tracks

variable {id : RequestId} {request : PendingRequest (κ × Nat) ε} {x x' : Exchange κ ε η}

/-- Whatever is done, a request that is tracked stays tracked. -/
theorem persists (h : Tracks id request x) (hp : x.Persists x') : Tracks id request x' where
  sharded := hp.sound.sharded
  marked := Nat.lt_of_lt_of_le h.marked hp.serial
  once := (hp.endings _ h.marked).trans h.once
  waiting e he hmine := h.waiting e (hp.waiting e he (by rw [hmine]; exact h.marked)) hmine
  queued d hd hmine := by
    rcases hp.queued d hd (by rw [hmine]; exact h.marked) with hold | ⟨e, he, hnew⟩
    · exact h.queued d hold hmine
    · have hsource : e.2.continuation = request.continuation := by
        rw [← hmine, hnew]
        rfl
      rw [h.waiting e he hsource] at hnew
      exact hnew

theorem length_endingsOf (h : Tracks id request x) :
    x.router.table.waitingFor request.continuation +
      (x.endingsOf request.continuation).length = 1 := by
  rw [endingsOf, ← List.countP_eq_length_filter]
  exact h.once

/-- A request has one ending at most. -/
theorem length_endingsOf_le (h : Tracks id request x) :
    (x.endingsOf request.continuation).length ≤ 1 := by
  have := h.length_endingsOf
  omega

/-- A request waits if and only if it has no ending. -/
theorem find?_eq_some_iff (h : Tracks id request x) :
    x.router.table.find? id = some request ↔ x.endingsOf request.continuation = [] := by
  have hone := h.length_endingsOf
  rw [h.sharded.find?_eq_some_iff, ← List.length_eq_zero_iff]
  have hwaits : (id, request) ∈ x.router.table.entries ↔
      0 < x.router.table.waitingFor request.continuation := by
    rw [PendingTable.waitingFor, List.countP_pos_iff]
    constructor
    · exact fun hmem => ⟨_, hmem, by simp⟩
    · rintro ⟨e, he, hmine⟩
      rw [← h.waiting e he (of_decide_eq_true hmine)]
      exact he
  refine hwaits.trans ?_
  omega

/-- An ending of a request is a delivery of its own. -/
theorem eq_deliver (h : Tracks id request x) {d : Delivery (κ × Nat) ε}
    (hd : d ∈ x.endingsOf request.continuation) : d = request.deliver id d.outcome true := by
  obtain ⟨hqueued, hends⟩ := List.mem_filter.mp hd
  obtain ⟨hterminal, hmine⟩ := Bool.and_eq_true_iff.mp hends
  have heq := h.queued d hqueued (of_decide_eq_true hmine)
  have hlast : d.outcome.isTerminal = true := by
    rw [← hterminal]
    conv_rhs => rw [heq]
    rfl
  rw [hlast] at heq
  exact heq

theorem endingsOf_eq_singleton (h : Tracks id request x) {d : Delivery (κ × Nat) ε}
    (hd : d ∈ x.endingsOf request.continuation) : x.endingsOf request.continuation = [d] := by
  have hle := h.length_endingsOf_le
  obtain ⟨d', hd'⟩ := List.length_eq_one_iff.mp
    (Nat.le_antisymm hle (List.length_pos_of_mem hd))
  rw [hd'] at hd ⊢
  rw [List.mem_singleton.mp hd]

omit [DecidableEq κ] in
theorem conclude_error (id : RequestId) (e : Fault) (x : Exchange κ ε η) :
    conclude id (.error e, x) =
      { x with
        router := { x.router with table := (x.router.table.fail id e).2.2 }
        queued := x.queued ++ (x.router.table.fail id e).2.1 } :=
  congrArg Prod.snd (run_onTable (·.fail id e) x)

theorem endingsOf_append (r : Router (κ × Nat) ε η) (x : Exchange κ ε η)
    (deliveries : List (Delivery (κ × Nat) ε)) (c : κ × Nat) :
    endingsOf { x with router := r, queued := x.queued ++ deliveries } c =
      x.endingsOf c ++ deliveries.filter (·.endsFor c) :=
  List.filter_append _ _

/-- A request that still waits ends with what went wrong in forwarding. -/
theorem endingsOf_conclude_of_nil (h : Tracks id request x)
    (hwaits : x.endingsOf request.continuation = []) (e : Fault) :
    (conclude id (.error e, x)).endingsOf request.continuation =
      [request.deliver id (.error e) true] := by
  rw [conclude_error, endingsOf_append, hwaits,
    PendingTable.fail_of_some (h.find?_eq_some_iff.mpr hwaits)]
  simp [Delivery.endsFor, PendingRequest.deliver]

/-- A request that has ended does not end with what went wrong in forwarding. -/
theorem endingsOf_conclude_of_ne_nil (h : Tracks id request x)
    (hended : x.endingsOf request.continuation ≠ []) (e : Fault) :
    (conclude id (.error e, x)).endingsOf request.continuation =
      x.endingsOf request.continuation := by
  rw [conclude_error, endingsOf_append]
  cases hf : x.router.table.find? id with
  | none =>
    rw [PendingTable.fail_of_none hf]
    exact List.append_nil _
  | some other =>
    have hother : other.continuation ≠ request.continuation := by
      intro hmine
      have hmem := (h.sharded.find?_eq_some_iff id other).mp hf
      obtain rfl : other = request := congrArg Prod.snd (h.waiting _ hmem hmine)
      exact hended (h.find?_eq_some_iff.mp hf)
    rw [PendingTable.fail_of_some hf]
    simp [Delivery.endsFor, PendingRequest.deliver, hother]

/-- As long as numbers do not reach around, no other request waits under the id. -/
theorem eq_of_find? {taken : Exchange κ ε η} (h : Tracks id request taken)
    (hfound : taken.router.table.find? id = some request)
    (hnext : taken.router.table.nextId = id.value + 1) (hp : taken.Persists x)
    (hfew : x.serial < taken.serial + UInt64.size) {other : PendingRequest (κ × Nat) ε}
    (hother : x.router.table.find? id = some other) : other = request := by
  have hmem := (hp.sound.sharded.find?_eq_some_iff id other).mp hother
  rcases Nat.lt_or_ge other.continuation.2 taken.serial with hold | hnew
  · have hbefore := (h.sharded.find?_eq_some_iff id other).mpr (hp.waiting _ hmem hold)
    exact Option.some.inj (hbefore.symm.trans hfound)
  · obtain ⟨n, hserial, -, hids⟩ := hp.ids
    obtain ⟨i, hi, heq⟩ := hids _ hmem hnew
    -- the id would have been handed out again after all others
    have haround : UInt64.ofNat (i + 1) = 0 := by
      have hsum : id.value + UInt64.ofNat (i + 1) = id.value + 0 := by
        rw [UInt64.add_zero, UInt64.ofNat_add, UInt64.add_comm (UInt64.ofNat i)]
        rw [hnext, UInt64.add_assoc] at heq
        exact heq.symm
      exact (UInt64.add_right_inj id.value).mp hsum
    have hmod : (i + 1) % UInt64.size = 0 := by
      have := congrArg UInt64.toNat haround
      rw [UInt64.toNat_ofNat'] at this
      exact this
    have := Nat.le_of_dvd (Nat.succ_pos i) (Nat.dvd_of_mod_eq_zero hmod)
    omega

/-- What goes wrong in forwarding is forgotten if no request waits under the id any more. -/
theorem conclude_of_ended (h : Tracks id request x)
    (hended : x.endingsOf request.continuation ≠ [])
    (honly : ∀ other, x.router.table.find? id = some other → other = request) (e : Fault) :
    conclude id (.error e, x) = x := by
  cases hf : x.router.table.find? id with
  | none =>
    rw [conclude_error, PendingTable.fail_of_none hf, List.append_nil]
  | some other =>
    rw [honly other hf] at hf
    exact absurd (h.find?_eq_some_iff.mp hf) hended

end Tracks

/-- Whatever a router has been through, and whatever the endpoint does with the command before it
answers: a request that was taken has one ending at most when the send comes back, and it waits if
and only if it has none. When forwarding fails, the request has one ending. It is the fault of
forwarding if nothing has ended the request before; otherwise it is what ended the request, and the
fault is forgotten. -/
theorem sendCmd_single_ending (shards : Nat) (routes : List (Loc × η)) (before : Conduct κ ε η)
    (p : Outlet ε) (cmd : Cmd) (continuation : κ) (streaming : Bool)
    (deliver : η → Message → Conduct κ ε η) {id : RequestId}
    (hsent : (sendCmd (fun endpoint msg => (deliver endpoint msg).run) p cmd continuation streaming
      (before.run (ofRoutes shards routes)).2).1 = .ok id) :
    let x := (before.run (ofRoutes shards routes)).2
    let forward endpoint msg := (deliver endpoint msg).run
    let request : PendingRequest (κ × Nat) ε :=
      { continuation := (continuation, x.serial), executor := p.executor, streaming }
    let taken := { x with serial := x.serial + 1 }.enroll request
    let forwarded := forwarding forward p cmd id taken
    let sent := (sendCmd forward p cmd continuation streaming x).2
    (sent.endingsOf request.continuation).length ≤ 1 ∧
      (sent.router.table.find? id = some request ↔ sent.endingsOf request.continuation = []) ∧
      match forwarded with
      | (.ok (), after) => sent = after
      | (.error e, after) =>
        (after.endingsOf request.continuation = [] →
          sent.endingsOf request.continuation = [request.deliver id (.error e) true]) ∧
        ∀ ending ∈ after.endingsOf request.continuation,
          ending = request.deliver id ending.outcome true ∧
            sent.endingsOf request.continuation = [ending] ∧
            (after.serial ≤ x.serial + UInt64.size → sent = after) := by
  intro x forward request taken forwarded sent
  have hkeeps : ∀ endpoint msg, Keeps _ (forward endpoint msg) :=
    fun endpoint msg => (deliver endpoint msg).keeps_run
  have hsound : x.Sound := (before.keeps_run _ (sound_ofRoutes shards routes)).sound
  have hrun := run_sendCmd forward p cmd (continuation, x.serial) streaming
    { x with serial := x.serial + 1 }
  rcases hrun with ⟨e, hrun⟩ | ⟨e, -, hrun⟩ | ⟨id', haccept, hrun⟩
  · exact nomatch (congrArg Prod.fst hrun).symm.trans hsent
  · exact nomatch (congrArg Prod.fst hrun).symm.trans hsent
  obtain rfl : id' = id := Except.ok.inj ((congrArg Prod.fst hrun).symm.trans hsent)
  have hafter : sent = conclude id' forwarded := congrArg Prod.snd hrun
  have htaken : Tracks id' request taken := tracks_enroll hsound rfl haccept
  have hforwarded : taken.Persists forwarded.2 :=
    persists_forwarding hkeeps p cmd id' (persists_enroll hsound rfl).sound
  have htracks : Tracks id' request forwarded.2 := htaken.persists hforwarded
  have hend : Tracks id' request sent := by
    rw [hafter]
    exact htracks.persists (persists_conclude id' hforwarded.sound)
  obtain ⟨hfound, hnext⟩ :=
    find?_enroll (x := { x with serial := x.serial + 1 }) hsound.sharded haccept
  refine ⟨hend.length_endingsOf_le, hend.find?_eq_some_iff, ?_⟩
  rw [hafter]
  clear_value forwarded
  obtain ⟨verdict, after⟩ := forwarded
  cases verdict with
  | ok _ => rfl
  | error e =>
    refine ⟨fun hwaits => htracks.endingsOf_conclude_of_nil hwaits e, fun ending hending => ?_⟩
    have hended : after.endingsOf request.continuation ≠ [] := List.ne_nil_of_mem hending
    refine ⟨htracks.eq_deliver hending, ?_, fun hfew => ?_⟩
    · rw [htracks.endingsOf_conclude_of_ne_nil hended e]
      exact htracks.endingsOf_eq_singleton hending
    · have hbound : after.serial < taken.serial + UInt64.size := by
        have hserial : taken.serial = x.serial + 1 := rfl
        omega
      exact htracks.conclude_of_ended hended
        (fun _ hother => htaken.eq_of_find? hfound hnext hforwarded hbound hother) e

/-- An endpoint that answers its command twice, the second time for good, cancels all requests and
then refuses the command. -/
def answerAndRefuse : Unit → Message → Conduct Unit Unit Unit
  | _, .cmd cmd =>
    .returnResult { CmdResult.answering .ok cmd with isFinal := false } fun _ =>
      .returnResult (.answering .ok cmd) fun _ =>
        .cancelAll "over" fun _ => .answer (.error (.invalidState "refused"))
  | _, _ => .answer (.ok ())

/-- A command that such an endpoint gets. -/
def refusedPing : Except Fault RequestId × Exchange Unit Unit Unit :=
  sendCmd (fun endpoint msg => (answerAndRefuse endpoint msg).run)
    { src := .tester, defaultDest := .extension "echo", executor := () } { name := "ping" } () true
    (Conduct.run (.answer (.ok ())) (ofRoutes 2 [(.extension "echo", ())])).2

/-- The final answer is the one ending of the command, and the refusal is forgotten. -/
theorem refusedPing_endsOnce :
    refusedPing.1 = .ok ⟨1⟩ ∧ (refusedPing.2.endingsOf ((), 0)).length ≤ 1 ∧
      (refusedPing.2.endingsOf ((), 0)).map (·.outcome) =
        [.ok (.answering .ok
          { name := "ping", requestId := some ⟨1⟩, src := some .tester })] :=
  ⟨rfl, (sendCmd_single_ending 2 [(.extension "echo", ())] (.answer (.ok ())) _ _ () true
    answerAndRefuse (show refusedPing.1 = .ok ⟨1⟩ from rfl)).1, by decide +kernel⟩

end Switchboard.Exchange
