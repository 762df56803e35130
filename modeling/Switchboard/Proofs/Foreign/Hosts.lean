import Switchboard.Proofs.Foreign.Deliveries
/-!
# What a host asks for

A tester of the program's own can do in place of a host what the host asks for: it sends the message
itself, with a handler or a completion of its own. What a host does on its boundary only has no
counterpart, and neither has a send for which no good message or callback was given.
-/
namespace Switchboard.App

/-- What a host may send. -/
inductive Sending where
  | cmd (streaming : Bool)
  | data
  | audioFrame
  | videoFrame
  | result

/-- The kind of message that is sent. -/
def Sending.kind : Sending → Kind
  | cmd _ => .cmd
  | data => .data
  | audioFrame => .audioFrame
  | videoFrame => .videoFrame
  | result => .cmdResult

/-- How a host asks for it. -/
def Sending.call (message callback : UInt64) : Sending → ForeignCall
  | cmd streaming => .sendCmd message callback streaming
  | data => .sendData message callback
  | audioFrame => .sendAudioFrame message callback
  | videoFrame => .sendVideoFrame message callback
  | result => .returnResult message callback

/-- The completion in place of a callback. -/
def ackOf (listener : Option (Handle × Callback)) : Option Ack := listener.map fun (_, c) => c.ack

/-- How a tester sends a message of its own, with a handler or a completion in place of a
callback. -/
def Sending.action? (nobody : String) (listener : Option (Handle × Callback)) :
    Sending → Message → Option Action
  | cmd streaming, .cmd c =>
    match listener with
    | some (_, callback) => some (.sendCmd c callback.tag streaming callback.followUp [])
    | none => some (.sendCmd c nobody streaming [] [])
  | data, .data d => some (.send (.data d) (ackOf listener))
  | audioFrame, .audioFrame f => some (.send (.audioFrame f) (ackOf listener))
  | videoFrame, .videoFrame f => some (.send (.videoFrame f) (ackOf listener))
  | result, .cmdResult r => some (.returnResult r (ackOf listener))
  | _, _ => none

/-- What a tester does in place of a host that sends a message of a boundary, if the callback is
good and the message is there. -/
def Sending.instead? (s : Sending) (nobody : String) (b : Boundary) (message callback : UInt64) :
    Option Action :=
  match b.callback? callback, (b.takeKind message s.kind).1 with
  | .ok listener, .ok msg => s.action? nobody listener msg
  | _, _ => none

/-- What a tester does in place of a host. -/
def ForeignCall.instead? (nobody : String) (b : Boundary) : ForeignCall → Option Action
  | sendCmd message raw streaming => Sending.instead? (.cmd streaming) nobody b message raw
  | sendData message raw => Sending.instead? .data nobody b message raw
  | sendAudioFrame message raw => Sending.instead? .audioFrame nobody b message raw
  | sendVideoFrame message raw => Sending.instead? .videoFrame nobody b message raw
  | returnResult message raw => Sending.instead? .result nobody b message raw
  | stop => some .stop
  | startDone => some .startDone
  | stopDone => some .stopDone
  | deinitDone => some .deinitDone
  | log level site message => some (.log level site message)
  | create _ | callback _ | take _ | releaseMessage _ | releaseCallback _ | live | drop => none

/-- A callback handle that is null or live, and who listens by it. -/
def Boundary.Listens (b : Boundary) (raw : UInt64) : Option (Handle × Callback) → Prop
  | none => raw = 0
  | some (handle, callback) => raw = handle.raw ∧ b.callbacks.get? handle = some callback

/-- The boundary of the present host; a new one is empty. -/
def host (a : App) : Boundary :=
  match a.boundary with
  | some i => a.boundaries.getD i {}
  | none => {}

/-- The status that a host is told in place of an answer. -/
def Answer.told : Answer → Option Status
  | done result => some (.ofResult result)
  | sent result => some (.ofResult result)
  | _ => none

/-- Only boundaries have changed: none is gone, and all messages are under numbers that were given
out for them. -/
structure Hosted (a a' : App) : Prop where
  eq : a' = { a with boundaries := a'.boundaries, boundary := a'.boundary }
  ages : Ages a.boundaries a'.boundaries
  grounded : a'.Grounded

variable {nobody : String} {a : App} {shown : List Event}

section Boundaries

theorem Hosted.refl (ha : a.Grounded) : Hosted a a := ⟨rfl, ages_refl _, ha⟩

theorem Hosted.typed_eq {a' : App} (h : Hosted a a') :
    a'.typed nobody shown = a.typed nobody shown := by
  rw [h.eq]
  rfl

theorem Hosted.testerEvents {a' : App} (h : Hosted a a') : a'.testerEvents = a.testerEvents := by
  rw [h.eq]

/-- A boundary that exists has changed. -/
theorem Grounded.hosted_set (ha : a.Grounded) {i : Nat} {b : Boundary}
    (h : (a.boundaries.getD i {}).messages.Ages b.messages) :
    Hosted a { a with boundaries := a.boundaries.setIfInBounds i b } where
  eq := rfl
  ages := ages_set h
  grounded := by
    constructor
    · intro k j listener hhears
      rw [Array.size_setIfInBounds]
      exact ha.hears k j listener hhears
    · intro j hj
      rw [Array.size_setIfInBounds]
      exact ha.boundary j hj

/-- The second application has the boundary of a present host, which was made if there was none. -/
structure Received (a a' : App) (i : Nat) : Prop where
  eq : a' = { a with boundaries := a'.boundaries, boundary := some i }
  same : ∀ j, a'.boundaries.getD j {} = a.boundaries.getD j {}
  lt_size : i < a'.boundaries.size
  host : a'.boundaries.getD i {} = a.host
  grounded : a'.Grounded

theorem Grounded.exists_received (ha : a.Grounded) :
    ∃ i a', Program.currentBoundary.run a = (i, a') ∧ Received a a' i := by
  have hrun : Program.currentBoundary.run a =
      match a.boundary with
      | some i => (i, a)
      | none => (a.boundaries.size,
          { a with boundaries := a.boundaries.push {}, boundary := some a.boundaries.size }) := rfl
  rw [hrun]
  cases hboundary : a.boundary with
  | some i =>
    refine ⟨i, a, rfl, ?_, fun _ => rfl, ha.boundary i hboundary, ?_, ha⟩
    · rw [← hboundary]
    · rw [host, hboundary]
  | none =>
    have hsame (j : Nat) : (a.boundaries.push {}).getD j {} = a.boundaries.getD j {} := by
      rw [Array.getD_eq_getD_getElem?, Array.getD_eq_getD_getElem?, Array.getElem?_push]
      split
      · subst j
        simp
      · rfl
    have hsize : (a.boundaries.push {}).size = a.boundaries.size + 1 := Array.size_push _
    refine ⟨_, _, rfl, rfl, hsame, ?_, ?_, fun k j listener hhears => ?_, fun j hj => ?_⟩
    · dsimp only
      omega
    · dsimp only
      rw [hsame, host, hboundary, Array.getD_eq_getD_getElem?,
        Array.getElem?_eq_none (Nat.le_refl _)]
      rfl
    · have hlt := ha.hears k j listener hhears
      dsimp only
      omega
    · cases hj
      dsimp only
      omega

theorem Received.hosted {a' b : App} {i : Nat} (h : Received a a' i) (hb : Hosted a' b) :
    Hosted a b where
  eq := by rw [hb.eq, h.eq]
  ages j := by
    rw [← h.same]
    exact hb.ages j
  grounded := hb.grounded

end Boundaries

/-- A host was given what it asked for: it is told what the tester in its place is answered, and
both have done and shown the same. -/
structure Heeded (nobody : String) (a : App) (shown events : List Event) (out out' : Answer × App) :
    Prop where
  answer : out'.1.told.map .status = some out.1
  eq_typed : out'.2 = out.2.typed nobody (shown ++ events)
  shows : out.2.testerEvents = a.testerEvents ++ events
  boundaries : out.2.boundaries = a.boundaries
  adds : Augments a out.2
  grounded : out.2.Grounded

section Sends

variable {α : Type}

theorem Grounded.mirrored {events : List Event} {out out' : α × App} (ha : a.Grounded)
    (h : Mirrored nobody a shown events out out') : out.2.Grounded where
  hears k i listener hhears := by
    rw [h.boundaries]
    exact ha.hears k i listener (h.hears k i listener hhears)
  boundary i hi := by
    rw [h.boundaries]
    exact ha.boundary i (h.boundary ▸ hi)

/-- Where two programs follow each other, the host is told the result of the one and the tester is
answered with the result of the other. -/
theorem Follows.heeded {p p' : Program (Except Fault α)} (hp : Follows nobody p p')
    (ha : a.Grounded) {answer : Except Fault α → Answer}
    (htold : ∀ result, (answer result).told = some (.ofResult result)) :
    ∃ events, Heeded nobody a shown events
      ((p.run a).map (fun result => .status (.ofResult result)) id)
      ((p'.run (a.typed nobody shown)).map answer id) := by
  obtain ⟨events, hmirrored⟩ := hp a shown
  have hgrounded := ha.mirrored hmirrored
  refine ⟨events, ?_, ?_, hmirrored.shows, hmirrored.boundaries, hmirrored.adds, hgrounded⟩
  · rw [hmirrored.eq_typed]
    exact congrArg (Option.map Answer.status) (htold _)
  · rw [hmirrored.eq_typed]
    rfl

theorem typed_foreignCompletion (i : Nat) (listener : Option (Handle × Callback)) :
    (Program.foreignCompletion i listener).map Completion.typed =
      Program.completionOf .tester (ackOf listener) := by
  rcases listener with _ | ⟨handle, callback⟩
  · rfl
  · rfl

theorem Grounded.heeded_send (ha : a.Grounded) (i : Nat) (listener : Option (Handle × Callback))
    (msg : Message) :
    ∃ events, Heeded nobody a shown events
      (((Program.send .tester msg (Program.foreignCompletion i listener)).run a).map
        (fun result => .status (.ofResult result)) id)
      ((Program.perform (.act (.send msg (ackOf listener)))).run (a.typed nobody shown)) := by
  have hmimics := @mimics_send nobody .tester msg (Program.foreignCompletion i listener)
  rw [typed_foreignCompletion] at hmimics
  exact hmimics.follows.heeded ha fun _ => rfl

theorem Grounded.heeded_returnResult (ha : a.Grounded) (i : Nat)
    (listener : Option (Handle × Callback)) (result : CmdResult) :
    ∃ events, Heeded nobody a shown events
      (((Program.returnResult .tester result (Program.foreignCompletion i listener)).run a).map
        (fun result => .status (.ofResult result)) id)
      ((Program.perform (.act (.returnResult result (ackOf listener)))).run
        (a.typed nobody shown)) := by
  have hmimics := @mimics_returnResult nobody .tester result (Program.foreignCompletion i listener)
  rw [typed_foreignCompletion] at hmimics
  exact hmimics.follows.heeded ha fun _ => rfl

/-- The handler of a tester waits where the foreign one would. -/
theorem Grounded.heeded_sendCmd (ha : a.Grounded) {i : Nat} (hi : i < a.boundaries.size)
    (listener : Option (Handle × Callback)) (cmd : Cmd) (streaming : Bool) :
    ∃ events, Heeded nobody a shown events
      (((Program.sendCmd (.foreign i listener) cmd streaming).run a).map
        (fun result => .status (.ofResult result)) id)
      (((Program.sendCmd (.inPlaceOf nobody listener) cmd streaming).run
        (a.typed nobody shown)).map .sent id) := by
  obtain ⟨b, hb⟩ : ∃ b : App,
      { a with cells := a.cells.push (.ofHandler (.foreign i listener)) } = b := ⟨_, rfl⟩
  have hcell : (Program.newCell (.foreign i listener)).run a = (a.cells.size, b) :=
    congrArg (a.cells.size, ·) hb
  have hcell' : (Program.newCell (.inPlaceOf nobody listener)).run (a.typed nobody shown) =
      (a.cells.size, b.typed nobody shown) := by
    have htyped := run_newCell_typed nobody a shown (.foreign i listener)
    rwa [hcell] at htyped
  have hgrounded : b.Grounded := by
    subst hb
    refine ⟨?_, ha.boundary⟩
    rintro k j other ⟨c, hfound, hslot⟩
    change (a.cells.push _)[k]? = some c at hfound
    rw [Array.getElem?_push] at hfound
    split at hfound
    · cases hfound
      cases hslot
      exact hi
    · exact ha.hears k j other ⟨c, hfound, hslot⟩
  rw [sendCmd_eq, sendCmd_eq, run_bind, run_bind, hcell, hcell', side_inPlaceOf]
  obtain ⟨events, hheeded⟩ : ∃ events, Heeded nobody b shown events
      (((sendFor .tester cmd streaming a.cells.size).run b).map
        (fun result => .status (.ofResult result)) id)
      (((sendFor .tester cmd streaming a.cells.size).run (b.typed nobody shown)).map .sent id) :=
    (follows_sendFor .tester cmd streaming a.cells.size).heeded hgrounded fun _ => rfl
  subst hb
  exact ⟨events, hheeded.answer, hheeded.eq_typed, hheeded.shows, hheeded.boundaries,
    (augments_newCell a _).trans hheeded.adds, hheeded.grounded⟩

end Sends

/-- What a host asks for changes its boundary, and somebody in its place does the same besides, if
there is anything that can be done in its place. -/
def Obeys (nobody : String) (a : App) (shown : List Event) (instead : Option Action)
    (out : Answer × App) : Prop :=
  ∃ b, Hosted a b ∧
    match instead with
    | none => out.2 = b
    | some action => ∃ events, Heeded nobody b shown events out
        ((Program.perform (.act action)).run (b.typed nobody shown))

section Calls

/-- A message of a kind is taken, or everything stays as it is. -/
theorem takeKind_cases (raw : UInt64) (kind : Kind) (b : Boundary) :
    (∃ e, b.takeKind raw kind = (.error e, b) ∧ ∀ handle msg, Handle.ofRaw? raw = some handle →
      b.messages.get? handle = some msg → msg.kind ≠ kind) ∨
      ∃ handle msg, Handle.ofRaw? raw = some handle ∧ b.messages.get? handle = some msg ∧
        msg.kind = kind ∧
        b.takeKind raw kind = (.ok msg, { b with messages := b.messages.erase handle }) := by
  rw [Boundary.takeKind]
  cases Handle.ofRaw? raw with
  | none => exact Or.inl ⟨_, rfl, nofun⟩
  | some handle =>
    dsimp only
    cases hfound : b.messages.get? handle with
    | none =>
      refine Or.inl ⟨_, rfl, fun other msg hother hmsg => ?_⟩
      cases hother
      rw [hfound] at hmsg
      cases hmsg
    | some msg =>
      dsimp only
      by_cases hkind : msg.kind = kind
      · rw [if_pos hkind]
        exact Or.inr ⟨handle, msg, rfl, hfound, hkind, rfl⟩
      · rw [if_neg hkind]
        refine Or.inl ⟨_, rfl, fun other msg' hother hmsg => ?_⟩
        cases hother
        rw [hfound] at hmsg
        cases hmsg
        exact hkind

/-- A live message of the right kind is taken. -/
theorem takeKind_of_live {b : Boundary} {handle : Handle} {msg : Message}
    (h : b.messages.get? handle = some msg) {kind : Kind} (hkind : msg.kind = kind) :
    b.takeKind handle.raw kind = (.ok msg, { b with messages := b.messages.erase handle }) := by
  rw [Boundary.takeKind, Handle.ofRaw?_raw]
  dsimp only
  rw [h]
  dsimp only
  rw [if_pos hkind]

/-- Zero stands for nobody, and the number of a live callback for that. -/
theorem callback?_of_listens {b : Boundary} {raw : UInt64} {listener : Option (Handle × Callback)}
    (h : b.Listens raw listener) : b.callback? raw = .ok listener := by
  rcases listener with _ | ⟨handle, callback⟩
  · obtain rfl : raw = 0 := h
    rfl
  · obtain ⟨rfl, hfound⟩ := h
    rw [Boundary.callback?, Handle.ofRaw?_raw]
    dsimp only
    rw [hfound]

/-- Whoever a callback stands for listens by it. -/
theorem listens_of_callback? {b : Boundary} {raw : UInt64} {listener : Option (Handle × Callback)}
    (h : b.callback? raw = .ok listener) : b.Listens raw listener := by
  rw [Boundary.callback?] at h
  by_cases hzero : raw = 0
  · subst hzero
    cases h
    rfl
  · rw [Handle.ofRaw?, dif_neg hzero] at h
    dsimp only at h
    cases hfound : b.callbacks.get? ⟨raw, hzero⟩ with
    | none =>
      rw [hfound] at h
      cases h
    | some callback =>
      rw [hfound] at h
      cases h
      exact ⟨rfl, hfound⟩

/-- A send of what is there has a counterpart. -/
theorem instead?_call {b : Boundary} {s : Sending} {handle : Handle} {raw : UInt64} {msg : Message}
    {listener : Option (Handle × Callback)} (hfound : b.messages.get? handle = some msg)
    (hkind : msg.kind = s.kind) (hlistener : b.Listens raw listener) :
    (s.call handle.raw raw).instead? nobody b = s.action? nobody listener msg := by
  have hcall : (s.call handle.raw raw).instead? nobody b =
      s.instead? nobody b handle.raw raw := by
    cases s with
    | cmd | data | audioFrame | videoFrame | result => rfl
  rw [hcall, Sending.instead?, callback?_of_listens hlistener, takeKind_of_live hfound hkind]

/-- The callback is looked for at first, then the message is taken. -/
theorem run_sendForeign {α : Type} (i : Nat) (message raw : UInt64) (kind : Kind)
    (send : Message → Option (Handle × Callback) → Program (Except Fault α)) (a : App) :
    (Program.sendForeign i message raw kind send).run a =
      match (a.boundaries.getD i {}).callback? raw with
      | .error e => (.error e, a)
      | .ok listener =>
        match (a.boundaries.getD i {}).takeKind message kind with
        | (.error e, b) => (.error e, { a with boundaries := a.boundaries.setIfInBounds i b })
        | (.ok msg, b) =>
          (send msg listener).run { a with boundaries := a.boundaries.setIfInBounds i b } := by
  have hget : (Program.boundary i).get.run a = (a.boundaries.getD i {}, a) := by
    change (a.boundaries.getD i {},
      { a with boundaries := a.boundaries.setIfInBounds i (a.boundaries.getD i {}) }) = _
    rw [setIfInBounds_getD]
  have htake : ((Program.boundary i).step (·.takeKind message kind)).run a =
      (((a.boundaries.getD i {}).takeKind message kind).1,
        { a with
          boundaries := a.boundaries.setIfInBounds i
            ((a.boundaries.getD i {}).takeKind message kind).2 }) := rfl
  rw [Program.sendForeign, run_bind, hget]
  dsimp only
  cases (a.boundaries.getD i {}).callback? raw with
  | error e => rfl
  | ok listener =>
    dsimp only
    rw [run_bind, htake]
    generalize (a.boundaries.getD i {}).takeKind message kind = taken
    obtain ⟨answer, b⟩ := taken
    cases answer with
    | error e => rfl
    | ok msg => rfl

/-- A message is sent as the tester in place of the host would send it. -/
theorem Grounded.obeys_sendForeign {α : Type} (ha : a.Grounded) {i : Nat}
    (hi : i < a.boundaries.size) (s : Sending) (message raw : UInt64)
    {send : Message → Option (Handle × Callback) → Program (Except Fault α)}
    (hsend : ∀ (b : App) (listener : Option (Handle × Callback)) (msg : Message), b.Grounded →
      i < b.boundaries.size → msg.kind = s.kind →
      ∃ action events, s.action? nobody listener msg = some action ∧
        Heeded nobody b shown events
          (((send msg listener).run b).map (fun result => .status (.ofResult result)) id)
          ((Program.perform (.act action)).run (b.typed nobody shown))) :
    Obeys nobody a shown (s.instead? nobody (a.boundaries.getD i {}) message raw)
      (((Program.sendForeign i message raw s.kind send).run a).map
        (fun result => .status (.ofResult result)) id) := by
  rw [run_sendForeign, Sending.instead?]
  cases (a.boundaries.getD i {}).callback? raw with
  | error e => exact ⟨a, .refl ha, rfl⟩
  | ok listener =>
    dsimp only
    rcases takeKind_cases message s.kind (a.boundaries.getD i {}) with
      ⟨e, htaken, -⟩ | ⟨handle, msg, -, -, hkind, htaken⟩
    · rw [htaken]
      dsimp only
      rw [setIfInBounds_getD]
      exact ⟨a, .refl ha, rfl⟩
    · rw [htaken]
      dsimp only
      have hhosted : Hosted a _ := ha.hosted_set (i := i)
        (b := { a.boundaries.getD i {} with
          messages := (a.boundaries.getD i {}).messages.erase handle })
        ((HandleRegistry.Ages.refl _).erase handle)
      obtain ⟨action, events, haction, hheeded⟩ := hsend _ listener msg hhosted.grounded
        (Nat.lt_of_lt_of_eq hi Array.size_setIfInBounds.symm) hkind
      rw [haction]
      exact ⟨_, hhosted, events, hheeded⟩

/-- Data and frames are all sent in the same way. -/
theorem Sending.action?_of_isOneWay {s : Sending} (hs : s.kind.isOneWay) {msg : Message}
    (h : msg.kind = s.kind) (listener : Option (Handle × Callback)) :
    s.action? nobody listener msg = some (.send msg (ackOf listener)) := by
  cases s with
  | cmd streaming => cases hs
  | result => cases hs
  | data =>
    cases msg with
    | data d => rfl
    | cmd | cmdResult | audioFrame | videoFrame => cases h
  | audioFrame =>
    cases msg with
    | audioFrame frame => rfl
    | cmd | cmdResult | data | videoFrame => cases h
  | videoFrame =>
    cases msg with
    | videoFrame frame => rfl
    | cmd | cmdResult | data | audioFrame => cases h

/-- Every message of the right kind can be sent by a tester itself. -/
theorem Sending.isSome_action? {s : Sending} {msg : Message} (h : msg.kind = s.kind)
    (listener : Option (Handle × Callback)) : (s.action? nobody listener msg).isSome := by
  cases s with
  | cmd streaming =>
    cases msg with
    | cmd c =>
      rcases listener with _ | ⟨handle, callback⟩
      · rfl
      · rfl
    | cmdResult | data | audioFrame | videoFrame => cases h
  | result =>
    cases msg with
    | cmdResult result => rfl
    | cmd | data | audioFrame | videoFrame => cases h
  | data => rw [action?_of_isOneWay rfl h listener, Option.isSome_some]
  | audioFrame => rw [action?_of_isOneWay rfl h listener, Option.isSome_some]
  | videoFrame => rw [action?_of_isOneWay rfl h listener, Option.isSome_some]

/-- What is done on a boundary only. -/
theorem Grounded.obeys_boundary_step {α : Type} (ha : a.Grounded) (i : Nat)
    {f : Boundary → α × Boundary}
    (hf : ∀ b : Boundary, b.messages.Ages (f b).2.messages)
    (answer : α → Answer) :
    Obeys nobody a shown none ((do return answer (← (Program.boundary i).step f)).run a) :=
  ⟨_, ha.hosted_set (hf _), rfl⟩

theorem ages_takeMessage (raw : UInt64) (b : Boundary) :
    b.messages.Ages (match Handle.ofRaw? raw with
      | none => (none, b)
      | some handle =>
        let (msg, messages) := b.messages.take handle
        (msg, { b with messages })).2.messages := by
  cases Handle.ofRaw? raw with
  | none => exact .refl _
  | some handle => exact (HandleRegistry.Ages.refl _).erase handle

/-- Whatever a host asks for. -/
theorem Grounded.obeys_foreignAt (ha : a.Grounded) {i : Nat} (hi : i < a.boundaries.size)
    (call : ForeignCall) :
    Obeys nobody a shown (call.instead? nobody (a.boundaries.getD i {}))
      ((Program.foreignAt i call).run a) := by
  have hfollows {p : Program (Except Fault Unit)} (hp : Mimics nobody p p) :
      ∃ events, Heeded nobody a shown events
        ((p.run a).map (fun result => .status (.ofResult result)) id)
        ((p.run (a.typed nobody shown)).map .done id) := hp.follows.heeded ha fun _ => rfl
  have honeWay {s : Sending} (hs : s.kind.isOneWay) (message raw : UInt64) :
      Obeys nobody a shown (s.instead? nobody (a.boundaries.getD i {}) message raw)
        (((Program.sendOneWayForeign i message raw s.kind).run a).map
          (fun result => .status (.ofResult result)) id) := by
    refine ha.obeys_sendForeign hi s message raw fun b listener msg hb hi' hkind => ?_
    obtain ⟨events, hheeded⟩ := hb.heeded_send i listener msg
    exact ⟨_, events, Sending.action?_of_isOneWay hs hkind listener, hheeded⟩
  cases call with
  | create msg =>
    exact ha.obeys_boundary_step i (fun b => HandleRegistry.ages_insert _ _) .handle
  | callback c => exact ha.obeys_boundary_step i (fun b => .refl _) .handle
  | take raw => exact ha.obeys_boundary_step i (ages_takeMessage raw) .taken
  | releaseMessage raw =>
    exact ha.obeys_boundary_step i (ages_takeMessage raw)
      fun msg : Option Message => .flag msg.isSome
  | releaseCallback raw =>
    refine ha.obeys_boundary_step i (fun b => ?_) fun c : Option Callback => .flag c.isSome
    cases Handle.ofRaw? raw with
    | none => exact .refl _
    | some handle => exact .refl _
  | live =>
    exact ha.obeys_boundary_step i (f := fun b => (b, b)) (fun b => .refl _)
      fun b : Boundary => .live b.messages.size b.callbacks.size
  | sendCmd message raw streaming =>
    refine ha.obeys_sendForeign hi (.cmd streaming) message raw
      fun b listener msg hb hi' hkind => ?_
    cases msg with
    | cmd cmd =>
      obtain ⟨events, hheeded⟩ := hb.heeded_sendCmd hi' listener cmd streaming
      rcases listener with _ | ⟨handle, c⟩
      · exact ⟨_, events, rfl, hheeded⟩
      · exact ⟨_, events, rfl, hheeded⟩
    | cmdResult | data | audioFrame | videoFrame => cases hkind
  | sendData message raw => exact honeWay (s := .data) rfl message raw
  | sendAudioFrame message raw => exact honeWay (s := .audioFrame) rfl message raw
  | sendVideoFrame message raw => exact honeWay (s := .videoFrame) rfl message raw
  | returnResult message raw =>
    refine ha.obeys_sendForeign hi .result message raw fun b listener msg hb hi' hkind => ?_
    cases msg with
    | cmdResult result =>
      obtain ⟨events, hheeded⟩ := hb.heeded_returnResult i listener result
      exact ⟨_, events, rfl, hheeded⟩
    | cmd | data | audioFrame | videoFrame => cases hkind
  | stop => exact ⟨a, .refl ha, hfollows (mimics_stop false)⟩
  | startDone => exact ⟨a, .refl ha, hfollows (mimics_acknowledge .start)⟩
  | stopDone => exact ⟨a, .refl ha, hfollows (mimics_acknowledge .stop)⟩
  | deinitDone => exact ⟨a, .refl ha, hfollows (mimics_acknowledge .deinit)⟩
  | log level site message => exact ⟨a, .refl ha, hfollows (mimics_log level site message)⟩
  | drop =>
    have hhosted : Hosted a _ := ha.hosted_set (i := i)
      (b := (a.boundaries.getD i {}).clear) (HandleRegistry.ages_clear _)
    refine ⟨{ a with
      boundaries := a.boundaries.setIfInBounds i (a.boundaries.getD i {}).clear
      boundary := none }, ⟨rfl, hhosted.ages, hhosted.grounded.hears, nofun⟩, rfl⟩

theorem run_foreign {call : ForeignCall} {i : Nat} {a' : App}
    (h : Program.currentBoundary.run a = (i, a')) (hcall : call ≠ .drop ∨ a.boundary ≠ none) :
    (Program.foreign call).run a = (Program.foreignAt i call).run a' := by
  have hget : (get : Program App).run a = (a, a) := rfl
  rw [Program.foreign, run_bind, hget]
  split
  · exact hcall.elim (fun hne => absurd rfl hne) fun hne => absurd ‹a.boundary = none› hne
  · rw [run_bind, h]

/-- Where there is no host nothing is dropped. -/
theorem run_foreign_drop (h : a.boundary = none) :
    (Program.foreign .drop).run a = (.flag false, a) := by
  have hget : (get : Program App).run a = (a, a) := rfl
  rw [Program.foreign, run_bind, hget, h]
  rfl

/-- Whatever a host asks for, on its boundary or on a new one. -/
theorem Grounded.obeys_foreign (ha : a.Grounded) (call : ForeignCall) :
    Obeys nobody a shown (call.instead? nobody a.host) ((Program.foreign call).run a) := by
  obtain ⟨i, a', hrun, hreceived⟩ := ha.exists_received
  by_cases hcall : call = .drop ∧ a.boundary = none
  · obtain ⟨rfl, hnone⟩ := hcall
    rw [run_foreign_drop hnone]
    exact ⟨a, .refl ha, rfl⟩
  · obtain ⟨b, hhosted, hdone⟩ : Obeys nobody a' shown
        (call.instead? nobody (a'.boundaries.getD i {})) ((Program.foreignAt i call).run a') :=
      hreceived.grounded.obeys_foreignAt hreceived.lt_size call
    rw [run_foreign hrun (not_and_or.mp hcall), ← hreceived.host]
    exact ⟨b, hreceived.hosted hhosted, hdone⟩

end Calls

section Listeners

/-- A callback was given to the tester's worker last, if there is one. -/
def Announces (a : App) (i : Nat) (listener : Option (Handle × Callback)) : Prop :=
  ∀ handle callback, listener = some (handle, callback) → ∃ w : Worker Job,
    a.testerWorker = (w.accept (.job (.completion (.foreign i handle callback)))).2

/-- What a send leaves behind for a listener on a boundary: a handler that waits for the outcome of
a new command, or a completion. -/
def Awaits (a : App) (i : Nat) (listener : Option (Handle × Callback)) (cell : Nat) : Sending → Prop
  | .cmd _ => a.Hears cell i listener
  | .data | .audioFrame | .videoFrame | .result => a.Announces i listener

/-- Only what succeeds has the status of success. -/
theorem exists_ok_of_status {α : Type} {result : Except Fault α}
    (h : Status.ofResult result = .ok) : ∃ x, result = .ok x := by
  cases result with
  | ok x => exact ⟨x, rfl⟩
  | error e =>
    have hcode : e.code.toInt32 = ErrorCode.ok.toInt32 := congrArg Status.code h
    have hother : e.code ≠ .ok := by cases e <;> exact fun heq => by cases heq
    cases hfault : e.code with
    | ok => exact absurd hfault hother
    | invalidArgument | invalidState | cancelled | unknownRequest | dispatchFailure =>
      rw [hfault] at hcode
      exact absurd hcode (by decide)

/-- A call that succeeds ends by queueing its completion. -/
theorem announces_counted {call : Program (Except Fault Unit)} {f : Counters → Counters} {i : Nat}
    {listener : Option (Handle × Callback)}
    (hok : Status.ofResult
      ((Program.counted call f (Program.foreignCompletion i listener)).run a).1 = .ok) :
    ((Program.counted call f (Program.foreignCompletion i listener)).run a).2.Announces i
      listener := by
  rintro handle callback rfl
  obtain ⟨_, hdone⟩ := exists_ok_of_status hok
  rw [Program.foreignCompletion, Option.map_some, Program.counted, run_bind] at hdone ⊢
  generalize (PermitPool.during Program.pool call).run a = done at hdone ⊢
  obtain ⟨result, b⟩ := done
  cases result with
  | error e => cases hdone
  | ok _ =>
    set counted : App := { b with counters := f b.counters }
    obtain ⟨answer, hanswer⟩ : ∃ answer,
        (b.testerWorker.accept (.job (.completion (.foreign i handle callback)))).1 = answer :=
      ⟨_, rfl⟩
    have hexecute : ((Program.worker .tester).step
        (·.execute (.completion (.foreign i handle callback)))).run counted =
        (answer, counted.setWorker .tester
          (b.testerWorker.accept (.job (.completion (.foreign i handle callback)))).2) := by
      rw [← hanswer]
      rfl
    have hcount : (Program.count f).run b = ((), counted) := rfl
    refine ⟨b.testerWorker, ?_⟩
    dsimp only
    rw [run_bind, hcount, run_bind, Program.scheduleCompletion, run_bind, hexecute]
    cases answer with
    | ok _ => rfl
    | error e => rfl

/-- What mimics another program leaves the present host in its place. -/
theorem Mimics.boundary {α : Type} {p p' : Program α} (h : Mimics nobody p p') (a : App) :
    (p.run a).2.boundary = a.boundary := by
  obtain ⟨events, hmirrored⟩ := h.follows a []
  exact hmirrored.boundary

/-- The handler of a host waits for the outcome of its command. -/
theorem hears_sendCmd (i : Nat) (listener : Option (Handle × Callback)) (cmd : Cmd)
    (streaming : Bool) :
    ((Program.sendCmd (.foreign i listener) cmd streaming).run a).2.boundary = a.boundary ∧
      ((Program.sendCmd (.foreign i listener) cmd streaming).run a).2.Hears a.cells.size i
        listener := by
  obtain ⟨events, hmirrored⟩ := @follows_sendFor "" .tester cmd streaming a.cells.size
    { a with cells := a.cells.push (.ofHandler (.foreign i listener)) } []
  refine ⟨hmirrored.boundary, hmirrored.adds.hears ?_⟩
  exact ⟨_, Array.getElem?_push_size, rfl⟩

/-- A program that sends a message for a host of a boundary leaves the listener behind when it
succeeds. -/
def LeavesListener {α : Type} (i : Nat) (s : Sending)
    (send : Message → Option (Handle × Callback) → Program (Except Fault α)) : Prop :=
  ∀ (b : App) (msg : Message) (listener : Option (Handle × Callback)), msg.kind = s.kind →
    Status.ofResult ((send msg listener).run b).1 = .ok →
    ((send msg listener).run b).2.boundary = b.boundary ∧
      ((send msg listener).run b).2.Awaits i listener b.cells.size s

theorem leavesListener_send (i : Nat) {s : Sending} (hs : s.kind.isOneWay) :
    LeavesListener i s fun msg listener =>
      Program.send .tester msg (Program.foreignCompletion i listener) := by
  intro b msg listener hkind hok
  refine ⟨(@mimics_send "" .tester msg (Program.foreignCompletion i listener)).boundary b, ?_⟩
  have hannounces : ((Program.send .tester msg (Program.foreignCompletion i listener)).run
      b).2.Announces i listener := announces_counted hok
  cases s with
  | cmd streaming => cases hs
  | result => cases hs
  | data | audioFrame | videoFrame => exact hannounces

theorem leavesListener_returnResult (i : Nat) :
    LeavesListener i .result fun msg listener =>
      match msg with
      | .cmdResult result =>
        Program.returnResult .tester result (Program.foreignCompletion i listener)
      | _ => return .error (.invalidArgument "cmd_result is required") := by
  intro b msg listener hkind hok
  cases msg with
  | cmdResult result =>
    have hmimics := @mimics_returnResult "" .tester result (Program.foreignCompletion i listener)
    exact ⟨hmimics.boundary b, announces_counted hok⟩
  | cmd | data | audioFrame | videoFrame => cases hkind

theorem leavesListener_sendCmd (i : Nat) (streaming : Bool) :
    LeavesListener i (.cmd streaming) fun msg listener =>
      match msg with
      | .cmd cmd => Program.sendCmd (.foreign i listener) cmd streaming
      | _ => return .error (.invalidArgument "cmd is required") := by
  intro b msg listener hkind hok
  cases msg with
  | cmd cmd => exact hears_sendCmd i listener cmd streaming
  | cmdResult | data | audioFrame | videoFrame => cases hkind

/-- A message and a callback that are there are used. -/
theorem LeavesListener.sendForeign {α : Type} {i : Nat} {s : Sending}
    {send : Message → Option (Handle × Callback) → Program (Except Fault α)}
    (hsend : LeavesListener i s send) {handle : Handle} {raw : UInt64} {msg : Message}
    {listener : Option (Handle × Callback)}
    (hfound : (a.boundaries.getD i {}).messages.get? handle = some msg) (hkind : msg.kind = s.kind)
    (hlistener : (a.boundaries.getD i {}).callback? raw = .ok listener) {out : Answer × App}
    (hout : out = ((Program.sendForeign i handle.raw raw s.kind send).run a).map
      (fun result => .status (.ofResult result)) id)
    (hok : out.1 = .status .ok) :
    out.2.boundary = a.boundary ∧ out.2.Awaits i listener a.cells.size s := by
  rw [run_sendForeign, hlistener, takeKind_of_live hfound hkind] at hout
  subst hout
  exact hsend _ msg listener hkind (Answer.status.inj hok)

/-- A send that succeeds leaves its listener behind, on the boundary of the present host. -/
theorem Grounded.awaits_foreign (ha : a.Grounded) {s : Sending} {handle : Handle} {raw : UInt64}
    {msg : Message} {listener : Option (Handle × Callback)}
    (hfound : a.host.messages.get? handle = some msg) (hkind : msg.kind = s.kind)
    (hlistener : a.host.Listens raw listener)
    (hok : ((Program.foreign (s.call handle.raw raw)).run a).1 = .status .ok) :
    ∃ i, ((Program.foreign (s.call handle.raw raw)).run a).2.boundary = some i ∧
      ((Program.foreign (s.call handle.raw raw)).run a).2.Awaits i listener a.cells.size s := by
  obtain ⟨i, b, hrun, hreceived⟩ := ha.exists_received
  have hcall : (Program.foreign (s.call handle.raw raw)).run a =
      (Program.foreignAt i (s.call handle.raw raw)).run b := by
    refine run_foreign hrun (Or.inl fun heq => ?_)
    cases s <;> cases heq
  have hboundary : b.boundary = some i := by rw [hreceived.eq]
  have hcells : b.cells = a.cells := by rw [hreceived.eq]
  have hlistener := callback?_of_listens hlistener
  rw [← hreceived.host] at hfound hlistener
  rw [hcall] at hok ⊢
  refine ⟨i, ?_⟩
  rw [← hboundary, ← hcells]
  cases s with
  | cmd streaming =>
    exact (leavesListener_sendCmd i streaming).sendForeign hfound hkind hlistener rfl hok
  | data => exact (leavesListener_send i rfl).sendForeign hfound hkind hlistener rfl hok
  | audioFrame => exact (leavesListener_send i rfl).sendForeign hfound hkind hlistener rfl hok
  | videoFrame => exact (leavesListener_send i rfl).sendForeign hfound hkind hlistener rfl hok
  | result => exact (leavesListener_returnResult i).sendForeign hfound hkind hlistener rfl hok

end Listeners

end Switchboard.App
