import Switchboard.Proofs.Foreign.Fates
import Switchboard.Proofs.Foreign.Refinement
/-!
# Handles of foreign hosts

What a turn means for the handles of a boundary can be seen from outside: from what a host asks for
and is answered, and from what its callbacks are told. Boundaries become what that says, turn by
turn. A callback is released before it is called for the last time, and stays for anything else.
-/
namespace Switchboard.App

/-- The number of the present host's boundary, or of the one that it is going to have. -/
def hostNumber (a : App) : Nat := a.boundary.getD a.boundaries.size

/-- A handle that a host is answered. -/
def Answer.handle? : Answer → Option Handle
  | handle h => some h
  | _ => none

/-- Whether an answer is yes. -/
def Answer.isYes : Answer → Bool
  | flag value => value
  | _ => false

/-- What a send means for handles: a message that is there and of the right kind is used up, if the
callback is null or there. -/
def Sending.fates (s : Sending) (b : Boundary) (message raw : UInt64) : List Fate :=
  match Handle.ofRaw? message, b.callback? raw with
  | some handle, .ok listener =>
    if (b.messages.get? handle).any (·.kind = s.kind) then [.used handle listener] else []
  | _, _ => []

/-- What it means for handles that a host asks for something and is answered. -/
def ForeignCall.fates (b : Boundary) (answer : Answer) : ForeignCall → List Fate
  | create msg => (answer.handle?.map (Fate.created · msg)).toList
  | callback c => (answer.handle?.map (Fate.registered · c)).toList
  | take raw | releaseMessage raw => ((Handle.ofRaw? raw).map .taken).toList
  | releaseCallback raw => ((Handle.ofRaw? raw).map .released).toList
  | sendCmd message raw streaming => Sending.fates (.cmd streaming) b message raw
  | sendData message raw => Sending.fates .data b message raw
  | sendAudioFrame message raw => Sending.fates .audioFrame b message raw
  | sendVideoFrame message raw => Sending.fates .videoFrame b message raw
  | returnResult message raw => Sending.fates .result b message raw
  | drop => if answer.isYes then [.cleared] else []
  | live | stop | startDone | stopDone | deinitDone | log .. => []

/-- The handle that a callback was given, if it was called last. -/
def presented? (events : List Event) : Option Handle :=
  match events.getLast? with
  | some (.callback _ _ given) => given
  | _ => none

/-- What an outcome means for the handles of a listener whose callback was given a handle or
none. -/
def fatesTold (given : Option Handle) : Option (Handle × Callback) → Outcome → List Fate
  | some (handle, callback), .ok result =>
    (given.map (.presented · result)).toList ++
      if result.isFinal then [.ended handle callback] else []
  | some (handle, callback), .error _ => [.ended handle callback]
  | none, .ok result => [.withheld result]
  | none, .error _ => []

/-- What a job for a listener means for handles. -/
def Job.fates (given : Option Handle) (listener : Option (Handle × Callback)) : Job → List Fate
  | resume _ outcome _ => fatesTold given listener outcome
  | completion _ => (listener.map fun (handle, callback) => .ended handle callback).toList
  | arrival _ | initExtension _ | startExtension | phase _ => []

/-- What a turn means for the handles of a boundary. -/
def Turn.fates (a : App) (i : Nat) : Turn → List Fate
  | host call =>
    if a.hostNumber = i then call.fates a.host ((Program.foreign call).run a).1 else []
  | task side =>
    match (a.worker side).next.1 with
    | some (.job job) =>
      match a.listenerOf job with
      | some (j, listener) =>
        if j = i then job.fates (presented? (a.turned (.task side)).testerEvents) listener else []
      | none => []
    | some .mark | none => []
  | step .. | start _ | answer _ | flush _ | abort _ | shutDown _ | leave => []

/-- What becomes of the handles of a boundary, turn by turn. -/
def chronicle (i : Nat) : List Turn → App → List Fate
  | [], _ => []
  | t :: turns, a => t.fates a i ++ chronicle i turns (a.turned t)

/-- Fates on one boundary: it becomes what they say, and all others stay. -/
def SuffersAt (a a' : App) (i : Nat) (fates : List Fate) : Prop :=
  ∀ j, (a.boundaries.getD j {}).SuffersAll (if i = j then fates else [])
    (a'.boundaries.getD j {})

variable {a a' : App} {i : Nat} {b : Boundary} {fates : List Fate}

section Calls

theorem suffersAt_of_same (h : a'.boundaries = a.boundaries) : SuffersAt a a' i [] := by
  intro j
  rw [h, ite_self]
  exact .nil _

theorem suffersAt_set (hi : i < a.boundaries.size)
    (h : (a.boundaries.getD i {}).SuffersAll fates b)
    (ha' : a'.boundaries = a.boundaries.setIfInBounds i b) : SuffersAt a a' i fates := by
  intro j
  rw [ha', getD_setIfInBounds]
  by_cases heq : i = j
  · subst heq
    rw [if_pos rfl, if_pos ⟨rfl, hi⟩]
    exact h
  · rw [if_neg heq, if_neg fun hboth => heq hboth.1]
    exact .nil _

/-- A message is used up by a send just if it is there and of the right kind, and the callback is
null or there. -/
theorem used_mem_fates_iff {s : Sending} {message : Handle} {raw : UInt64}
    {listener : Option (Handle × Callback)} :
    .used message listener ∈ s.fates b message.raw raw ↔
      (∃ msg, b.messages.get? message = some msg ∧ msg.kind = s.kind) ∧ b.Listens raw listener := by
  have hthere : (b.messages.get? message).any (·.kind = s.kind) = true ↔
      ∃ msg, b.messages.get? message = some msg ∧ msg.kind = s.kind := by
    simp [Option.any_eq_true]
  rw [Sending.fates, Handle.ofRaw?_raw, ← hthere]
  cases hlistener : b.callback? raw with
  | error e =>
    refine iff_of_false List.not_mem_nil fun hboth => ?_
    rw [callback?_of_listens hboth.2] at hlistener
    cases hlistener
  | ok other =>
    dsimp only
    constructor
    · intro hmem
      split at hmem
      · cases List.mem_singleton.mp hmem
        exact ⟨‹_›, listens_of_callback? hlistener⟩
      · cases hmem
    · rintro ⟨hkind, hlistens⟩
      rw [callback?_of_listens hlistens] at hlistener
      cases hlistener
      rw [if_pos hkind]
      exact List.mem_singleton.mpr rfl

/-- What mimics another program leaves boundaries alone. -/
theorem Mimics.boundaries {nobody : String} {α : Type} {p p' : Program α}
    (h : Mimics nobody p p') (a : App) : (p.run a).2.boundaries = a.boundaries := by
  obtain ⟨events, hmirrored⟩ := h.follows a []
  exact hmirrored.boundaries

theorem boundaries_sendCmd (i : Nat) (listener : Option (Handle × Callback)) (cmd : Cmd)
    (streaming : Bool) (a : App) :
    ((Program.sendCmd (.foreign i listener) cmd streaming).run a).2.boundaries = a.boundaries := by
  obtain ⟨events, hmirrored⟩ := @follows_sendFor "" .tester cmd streaming a.cells.size
    { a with cells := a.cells.push (.ofHandler (.foreign i listener)) } []
  exact hmirrored.boundaries

/-- A send does nothing to boundaries but to use its message up. -/
theorem suffersAt_sendForeign {α : Type} (hi : i < a.boundaries.size) (s : Sending)
    (message raw : UInt64)
    {send : Message → Option (Handle × Callback) → Program (Except Fault α)}
    (hsend : ∀ msg listener b, ((send msg listener).run b).2.boundaries = b.boundaries) :
    SuffersAt a ((Program.sendForeign i message raw s.kind send).run a).2 i
      (s.fates (a.boundaries.getD i {}) message raw) := by
  have hsame : SuffersAt a a i [] := suffersAt_of_same rfl
  rw [run_sendForeign, Sending.fates]
  cases (a.boundaries.getD i {}).callback? raw with
  | error e =>
    cases Handle.ofRaw? message with
    | none => exact hsame
    | some handle => exact hsame
  | ok listener =>
    dsimp only
    rcases takeKind_cases message s.kind (a.boundaries.getD i {}) with
      ⟨e, htaken, hunfit⟩ | ⟨handle, msg, hraw, hfound, hkind, htaken⟩
    · rw [htaken]
      dsimp only
      rw [setIfInBounds_getD]
      cases hraw : Handle.ofRaw? message with
      | none => exact hsame
      | some handle =>
        dsimp only
        rw [if_neg]
        · exact hsame
        · rw [Option.any_eq_true]
          rintro ⟨msg, hfound, hkind⟩
          exact hunfit handle msg hraw hfound (of_decide_eq_true hkind)
    · rw [htaken, hraw]
      dsimp only
      rw [hfound, Option.any_some, if_pos (decide_eq_true hkind)]
      exact suffersAt_set hi (Boundary.Suffers.used handle listener).all (hsend _ _ _)

/-- All sends of a host use their message up in the same way, and what they do with it leaves
boundaries alone. -/
theorem exists_foreignAt_call (i : Nat) (s : Sending) (message raw : UInt64) :
    ∃ (α : Type) (send : Message → Option (Handle × Callback) → Program (Except Fault α)),
      Program.foreignAt i (s.call message raw) =
        (do return .status (.ofResult (← Program.sendForeign i message raw s.kind send))) ∧
      ∀ msg listener b, ((send msg listener).run b).2.boundaries = b.boundaries := by
  have honeWay (msg : Message) (listener : Option (Handle × Callback)) (b : App) :
      ((Program.send .tester msg (Program.foreignCompletion i listener)).run b).2.boundaries =
        b.boundaries :=
    (@mimics_send "" .tester msg (Program.foreignCompletion i listener)).boundaries b
  cases s with
  | cmd streaming =>
    refine ⟨RequestId, _, rfl, fun msg listener b => ?_⟩
    cases msg with
    | cmd cmd => exact boundaries_sendCmd i listener cmd streaming b
    | cmdResult | data | audioFrame | videoFrame => rfl
  | data => exact ⟨Unit, _, rfl, honeWay⟩
  | audioFrame => exact ⟨Unit, _, rfl, honeWay⟩
  | videoFrame => exact ⟨Unit, _, rfl, honeWay⟩
  | result =>
    refine ⟨Unit, _, rfl, fun msg listener b => ?_⟩
    cases msg with
    | cmdResult result =>
      have hmimics := @mimics_returnResult "" .tester result (Program.foreignCompletion i listener)
      exact hmimics.boundaries b
    | cmd | data | audioFrame | videoFrame => rfl

/-- Whatever a host asks for on its boundary. -/
theorem suffersAt_foreignAt (hi : i < a.boundaries.size) (call : ForeignCall) :
    SuffersAt a ((Program.foreignAt i call).run a).2 i
      (call.fates (a.boundaries.getD i {}) ((Program.foreignAt i call).run a).1) := by
  have hmimics {α : Type} {p : Program α} (hp : Mimics "" p p) {answer : α → Answer} :
      SuffersAt a ((do return answer (← p)).run a).2 i [] :=
    suffersAt_of_same (hp.boundaries a)
  have htake (raw : UInt64) (answer : Option Message → Answer) :
      SuffersAt a ((do return answer (← Program.takeMessage i raw)).run a).2 i
        ((Handle.ofRaw? raw).map .taken).toList := by
    rw [Program.takeMessage]
    cases Handle.ofRaw? raw with
    | none => exact suffersAt_set hi (.nil _) rfl
    | some handle => exact suffersAt_set hi (Boundary.Suffers.taken handle).all rfl
  have hsends (s : Sending) (message raw : UInt64) :
      SuffersAt a ((Program.foreignAt i (s.call message raw)).run a).2 i
        (s.fates (a.boundaries.getD i {}) message raw) := by
    obtain ⟨α, send, hcall, hsend⟩ := exists_foreignAt_call i s message raw
    rw [hcall]
    exact suffersAt_sendForeign hi s message raw hsend
  cases call with
  | create msg => exact suffersAt_set hi (Boundary.Suffers.created msg).all rfl
  | callback callback => exact suffersAt_set hi (Boundary.Suffers.registered callback).all rfl
  | take raw => exact htake raw .taken
  | releaseMessage raw => exact htake raw fun msg => .flag msg.isSome
  | releaseCallback raw =>
    rw [Program.foreignAt, Program.takeCallback, ForeignCall.fates]
    cases Handle.ofRaw? raw with
    | none => exact suffersAt_set hi (.nil _) rfl
    | some handle => exact suffersAt_set hi (Boundary.Suffers.released handle).all rfl
  | live => exact suffersAt_set hi (.nil _) rfl
  | sendCmd message raw streaming => exact hsends (.cmd streaming) message raw
  | sendData message raw => exact hsends .data message raw
  | sendAudioFrame message raw => exact hsends .audioFrame message raw
  | sendVideoFrame message raw => exact hsends .videoFrame message raw
  | returnResult message raw => exact hsends .result message raw
  | stop => exact hmimics (mimics_stop false)
  | startDone => exact hmimics (mimics_acknowledge .start)
  | stopDone => exact hmimics (mimics_acknowledge .stop)
  | deinitDone => exact hmimics (mimics_acknowledge .deinit)
  | log level site message => exact hmimics (mimics_log level site message)
  | drop => exact suffersAt_set hi Boundary.Suffers.cleared.all rfl

theorem run_currentBoundary_fst (a : App) :
    (Program.currentBoundary.run a).1 = a.hostNumber := by
  rw [Program.currentBoundary, StateT.run_modifyGet, hostNumber]
  cases a.boundary with
  | some i => rfl
  | none => rfl

theorem host_eq_getD (a : App) : a.host = a.boundaries.getD a.hostNumber {} := by
  rw [host, hostNumber]
  cases a.boundary with
  | some i => rfl
  | none =>
    rw [Option.getD_none, Array.getD_eq_getD_getElem?, Array.getElem?_eq_none (Nat.le_refl _)]
    rfl

/-- Whatever a host asks for, on its boundary or on a new one. -/
theorem Grounded.suffersAt_foreign (ha : a.Grounded) (call : ForeignCall) :
    SuffersAt a ((Program.foreign call).run a).2 a.hostNumber
      (call.fates a.host ((Program.foreign call).run a).1) := by
  by_cases hcall : call = .drop ∧ a.boundary = none
  · obtain ⟨rfl, hnone⟩ := hcall
    rw [run_foreign_drop hnone]
    exact suffersAt_of_same rfl
  · obtain ⟨i, b, hrun, hreceived⟩ := ha.exists_received
    have hnumber : a.hostNumber = i := by rw [← run_currentBoundary_fst, hrun]
    rw [hnumber, run_foreign hrun (not_and_or.mp hcall), ← hreceived.host]
    intro j
    rw [← hreceived.same]
    exact suffersAt_foreignAt hreceived.lt_size call j

end Calls

section Tasks

/-- Whether nothing more is going to come of the operation that a job is for. -/
def Job.isLast : Job → Bool
  | resume _ outcome _ => outcome.isTerminal
  | arrival _ | initExtension _ | startExtension | phase _ | completion _ => true

/-- What a job does when a callback has been called: a handler is put back where it was. -/
def Job.afterwards (i : Nat) (listener : Option (Handle × Callback)) (ended : Except Panic Unit) :
    Job → Program (Except Panic Unit)
  | resume k _ terminal => do
    (Program.cell k).modify (Continuation.putBack terminal (.foreign i listener))
    return ended
  | arrival _ | initExtension _ | startExtension | phase _ | completion _ => return ended

/-- A callback is called by a delivery when everything else was done to boundaries. -/
theorem exists_run_deliverForeign (hi : i < a.boundaries.size) (handle : Handle)
    (callback : Callback) (outcome : Outcome) :
    ∃ b status given,
      (Program.deliverForeign i (some (handle, callback)) outcome).run a =
        (Program.callBack callback status given).run
          { a with boundaries := a.boundaries.setIfInBounds i b } ∧
      (a.boundaries.getD i {}).SuffersAll (fatesTold given (some (handle, callback)) outcome) b ∧
      b.callbacks =
        if outcome.isTerminal then (a.boundaries.getD i {}).callbacks.erase handle
        else (a.boundaries.getD i {}).callbacks := by
  cases outcome with
  | error fault =>
    exact ⟨_, _, _, run_deliverForeign_error i handle callback fault,
      (Boundary.Suffers.ended handle callback).all, rfl⟩
  | ok result =>
    refine ⟨_, _, _, run_deliverForeign_ok hi handle callback result, ?_, rfl⟩
    refine Boundary.SuffersAll.append (Boundary.Suffers.presented result).all ?_
    cases result.isFinal with
    | true => exact (Boundary.Suffers.ended handle callback).all
    | false => exact .nil _

/-- A boundary that does not exist stays empty when a callback is released there. -/
theorem suffersAt_ended (handle : Handle) (callback : Callback)
    (ha' : a'.boundaries = a.boundaries.setIfInBounds i
      { a.boundaries.getD i {} with
        callbacks := (a.boundaries.getD i {}).callbacks.erase handle }) :
    SuffersAt a a' i [.ended handle callback] ∧
      (a'.boundaries.getD i {}).callbacks = (a.boundaries.getD i {}).callbacks.erase handle := by
  by_cases hi : i < a.boundaries.size
  · refine ⟨suffersAt_set hi (Boundary.Suffers.ended handle callback).all ha', ?_⟩
    rw [ha', getD_setIfInBounds, if_pos ⟨rfl, hi⟩]
  · have hnone : a.boundaries.getD i {} = {} := by
      rw [Array.getD_eq_getD_getElem?, Array.getElem?_eq_none (Nat.le_of_not_lt hi)]
      rfl
    rw [Array.setIfInBounds_eq_of_size_le (Nat.le_of_not_lt hi)] at ha'
    refine ⟨fun j => ?_, ?_⟩
    · by_cases heq : i = j
      · subst heq
        rw [if_pos rfl, ha', hnone]
        exact (Boundary.Suffers.ended handle callback).all
      · rw [if_neg heq, ha']
        exact .nil _
    · rw [ha', hnone]
      rfl

/-- Whoever a delivery is for waits where it arrives. -/
theorem slot_of_listenerOf {k : Nat} {outcome : Outcome} {terminal : Bool}
    {listener : Option (Handle × Callback)}
    (h : a.listenerOf (.resume k outcome terminal) = some (i, listener)) :
    (a.cells.getD k { slot := .released }).slot = .waiting (.foreign i listener) := by
  rw [listenerOf] at h
  cases hslot : (a.cells.getD k { slot := .released }).slot with
  | waiting handler =>
    rw [hslot] at h
    cases handler with
    | foreign j other =>
      cases h
      rfl
    | scripted side tag followUp panicOn current => cases h
    | promise j => cases h
    | silent => cases h
  | running =>
    rw [hslot] at h
    cases h
  | released =>
    rw [hslot] at h
    cases h

/-- A delivery for a listener is handed to the host; then the handler is put back. -/
theorem exists_run_resume {k : Nat} {outcome : Outcome} {terminal : Bool}
    {listener : Option (Handle × Callback)}
    (h : a.listenerOf (.resume k outcome terminal) = some (i, listener)) :
    ∃ b : App, b.boundaries = a.boundaries ∧
      (Continuation.resume (Program.cell k) Program.callHandler outcome terminal).run a =
        (Program.deliverForeign i listener outcome >>= fun ended =>
          (Job.resume k outcome terminal).afterwards i listener ended).run b := by
  have hslot := slot_of_listenerOf h
  obtain ⟨n, htaken⟩ : ∃ n, ((a.cells.getD k { slot := .released }).takeOut outcome terminal).1 =
      some (.foreign i listener, n) := by
    rw [Continuation.takeOut, hslot]
    exact ⟨_, rfl⟩
  set taken := a.setCell k ((a.cells.getD k { slot := .released }).takeOut outcome terminal).2
  refine ⟨taken.observing .tester outcome, (taken.aside_observing .tester outcome).boundaries, ?_⟩
  rw [Continuation.resume, run_bind, run_cell_step, htaken]
  dsimp only
  rw [run_callOut]
  rfl

/-- What a job does for somebody who has a callback: first everything else that it does to
boundaries, then the callback is called, and then at most a handler is put back. -/
theorem Grounded.exists_called (ha : a.Grounded) (side : Side) {job : Job} {handle : Handle}
    {callback : Callback} (h : a.listenerOf job = some (i, some (handle, callback))) :
    ∃ prepared status given,
      (Program.runJob side job).run a =
        (Program.callBack callback status given >>= fun ended =>
          job.afterwards i (some (handle, callback)) ended).run prepared ∧
      SuffersAt a prepared i (job.fates given (some (handle, callback))) ∧
      (prepared.boundaries.getD i {}).callbacks =
        if job.isLast then (a.boundaries.getD i {}).callbacks.erase handle
        else (a.boundaries.getD i {}).callbacks := by
  cases job with
  | resume k outcome terminal =>
    have hslot := slot_of_listenerOf h
    have hi := ha.hears k i _ ⟨_, getElem?_of_slot hslot, hslot⟩
    obtain ⟨b, hboundaries, hrun⟩ := exists_run_resume h
    have hi' : i < b.boundaries.size := hboundaries ▸ hi
    obtain ⟨c, status, given, hcalled, hsuffers, hcallbacks⟩ :=
      exists_run_deliverForeign hi' handle callback outcome
    rw [hboundaries] at hsuffers hcallbacks
    refine ⟨{ b with boundaries := b.boundaries.setIfInBounds i c }, status, given, ?_,
      suffersAt_set hi hsuffers (congrArg (·.setIfInBounds i c) hboundaries), ?_⟩
    · rw [run_bind, ← hcalled]
      exact hrun
    · change ((b.boundaries.setIfInBounds i c).getD i {}).callbacks = _
      rw [getD_setIfInBounds, if_pos ⟨rfl, hi'⟩]
      exact hcallbacks
  | completion completion =>
    cases completion with
    | foreign j other told =>
      cases h
      set prepared : App := { a with
        boundaries := a.boundaries.setIfInBounds i
          { a.boundaries.getD i {} with
            callbacks := (a.boundaries.getD i {}).callbacks.erase handle } }
      have hboundaries : prepared.boundaries = _ := rfl
      obtain ⟨hsuffers, hcallbacks⟩ := suffersAt_ended handle callback hboundaries
      exact ⟨prepared, _, _, rfl, hsuffers, hcallbacks⟩
    | scripted ack => cases h
    | promise j => cases h
  | arrival msg => cases h
  | initExtension properties => cases h
  | startExtension => cases h
  | phase phaseCallback => cases h

/-- When a worker has taken a job for somebody who has a callback, the callback is called for the
last time only when it is gone, and it stays for any other time. -/
theorem Grounded.exists_called_next (ha : a.Grounded) (side : Side) {job : Job} {handle : Handle}
    {callback : Callback} (h : a.listenerOf job = some (i, some (handle, callback))) :
    ∃ prepared status given,
      (Program.runJob side job).run (a.popped side) =
        (Program.callBack callback status given >>= fun ended =>
          job.afterwards i (some (handle, callback)) ended).run prepared ∧
      (job.isLast = true → (prepared.boundaries.getD i {}).callbacks.get? handle = none) ∧
      (job.isLast = false →
        (prepared.boundaries.getD i {}).callbacks = (a.boundaries.getD i {}).callbacks) := by
  obtain ⟨hboundaries, -, -⟩ := a.aside_setWorker side (a.worker side).next.2
  have hlistener : (a.popped side).listenerOf job = some (i, some (handle, callback)) :=
    (listenerOf_setWorker side _ job).trans h
  obtain ⟨prepared, status, given, hrun, -, hcallbacks⟩ :=
    (ha.setWorker side _).exists_called side hlistener
  refine ⟨prepared, status, given, hrun, fun hlast => ?_, fun hlast => ?_⟩
  · rw [hcallbacks, if_pos hlast, HandleRegistry.get?_erase_self]
  · rw [hcallbacks, hlast, if_neg Bool.false_ne_true, hboundaries]

/-- A job for a listener without a callback. -/
theorem Grounded.suffersAt_unheard (ha : a.Grounded) (side : Side) {job : Job}
    (h : a.listenerOf job = some (i, none)) (given : Option Handle) :
    SuffersAt a ((Program.runJob side job).run a).2 i (job.fates given none) := by
  cases job with
  | resume k outcome terminal =>
    have hslot := slot_of_listenerOf h
    have hi := ha.hears k i _ ⟨_, getElem?_of_slot hslot, hslot⟩
    obtain ⟨b, hboundaries, hrun⟩ := exists_run_resume h
    have hi' : i < b.boundaries.size := hboundaries ▸ hi
    have hrun' : (Program.runJob side (.resume k outcome terminal)).run a = _ := hrun
    rw [hrun', run_bind]
    cases outcome with
    | error fault => exact suffersAt_of_same hboundaries
    | ok result =>
      rw [run_deliverForeign_nobody hi']
      refine suffersAt_set hi (Boundary.Suffers.withheld result).all ?_
      rw [← hboundaries]
      rfl
  | completion completion =>
    cases completion with
    | foreign j other told => cases h
    | scripted ack => cases h
    | promise j => cases h
  | arrival msg => cases h
  | initExtension properties => cases h
  | startExtension => cases h
  | phase phaseCallback => cases h

theorem aside_afterwards (job : Job) (i : Nat) (listener : Option (Handle × Callback))
    (ended : Except Panic Unit) (a : App) :
    Aside a ((job.afterwards i listener ended).run a).2 := by
  cases job with
  | resume k outcome terminal => exact ⟨rfl, rfl, rfl⟩
  | arrival | initExtension | startExtension | phase | completion => exact ⟨rfl, rfl, rfl⟩

/-- A worker takes its oldest job, runs it and counts it. -/
theorem turned_task {side : Side} {job : Job} (h : (a.worker side).next.1 = some (.job job)) :
    Aside ((Program.runJob side job).run (a.popped side)).2 (a.turned (.task side)) := by
  have hnext : ((Program.worker side).step Worker.next).run a =
      ((a.worker side).next.1, a.popped side) := rfl
  have hturned : a.turned (.task side) = ((Program.advance side).run a).2 := rfl
  rw [hturned, Program.advance, run_bind, hnext, h]
  exact aside_setWorker _ side _

/-- A worker runs its oldest task: boundaries become what it means. -/
theorem Grounded.suffers_task (ha : a.Grounded) (side : Side) (i : Nat) :
    (a.boundaries.getD i {}).SuffersAll ((Turn.task side).fates a i)
      ((a.turned (.task side)).boundaries.getD i {}) := by
  obtain ⟨hboundaries, -, -⟩ := a.aside_setWorker side (a.worker side).next.2
  have hpopped : (a.popped side).Grounded := ha.setWorker side _
  have hsame (haddressee : a.addressee side = none) :
      (a.boundaries.getD i {}).SuffersAll [] ((a.turned (.task side)).boundaries.getD i {}) := by
    obtain ⟨events, more, htold⟩ := @Grounded.exists_told_advance "" a [] ha side
    rw [haddressee] at htold
    have hkept : (a.turned (.task side)).boundaries = a.boundaries := by
      cases htold.tells with
      | alike _ h => exact h.trans hboundaries
    rw [hkept]
    exact .nil _
  rw [addressee] at hsame
  rw [Turn.fates]
  cases hnext : (a.worker side).next.1 with
  | none =>
    rw [hnext] at hsame
    exact hsame rfl
  | some task =>
    rw [hnext] at hsame
    cases task with
    | mark => exact hsame rfl
    | job job =>
      obtain ⟨hafter, -, hevents⟩ := turned_task hnext
      dsimp only at hsame ⊢
      have hlistener : (a.popped side).listenerOf job = a.listenerOf job :=
        listenerOf_setWorker side _ job
      cases haddressed : a.listenerOf job with
      | none => exact hsame haddressed
      | some addressed =>
        obtain ⟨j, listener⟩ := addressed
        rw [haddressed] at hlistener
        dsimp only
        rw [hafter, ← hboundaries]
        rcases listener with _ | ⟨handle, callback⟩
        · exact hpopped.suffersAt_unheard side hlistener _ i
        · obtain ⟨prepared, status, given, hrun, hsuffers, -⟩ :=
            hpopped.exists_called side hlistener
          rw [hrun, run_bind, run_callBack]
          obtain ⟨hprepared, -, hshown⟩ := aside_afterwards job j (some (handle, callback))
            (callback.ending (callback.tag ++ " panics"))
            (prepared.addEvent .tester (.callback callback.tag status given))
          rw [hrun, run_bind, run_callBack, hshown] at hevents
          have hgiven : presented? (a.turned (.task side)).testerEvents = given := by
            rw [hevents, presented?, addEvent, List.getLast?_concat]
          rw [hgiven, hprepared]
          exact hsuffers i

end Tasks

section Courses

theorem Grounded.goesOn (ha : a.Grounded) {t : Turn} : (a.turned t).Grounded := by
  obtain ⟨events, more, hmatches⟩ := @Grounded.exists_matches "" a [] ha t
  exact hmatches.grounded

theorem Grounded.course (ha : a.Grounded) (turns : List Turn) :
    (turns.foldl turned a).Grounded := by
  induction turns generalizing a with
  | nil => exact ha
  | cons t turns ih => exact ih ha.goesOn

/-- By every turn, every boundary becomes what the turn means. -/
theorem Grounded.suffers_turn (ha : a.Grounded) (t : Turn) (i : Nat) :
    (a.boundaries.getD i {}).SuffersAll (t.fates a i) ((a.turned t).boundaries.getD i {}) := by
  have hplain {t : Turn} (ht : t.isPlain) :
      (a.boundaries.getD i {}).SuffersAll [] ((a.turned t).boundaries.getD i {}) := by
    obtain ⟨events, hmirrored⟩ := @Turn.follows "" t ht a []
    have hboundaries : (a.turned t).boundaries = a.boundaries := hmirrored.boundaries
    rw [hboundaries]
    exact .nil _
  cases t with
  | host call => exact ha.suffersAt_foreign call i
  | task side => exact ha.suffers_task side i
  | step | start | answer | flush | abort | shutDown | leave => exact hplain rfl

/-- By all turns, every boundary becomes what its chronicle says. -/
theorem Grounded.suffers_course (ha : a.Grounded) (turns : List Turn) (i : Nat) :
    (a.boundaries.getD i {}).SuffersAll (chronicle i turns a)
      ((turns.foldl turned a).boundaries.getD i {}) := by
  induction turns generalizing a with
  | nil => exact .nil _
  | cons t turns ih => exact (ha.suffers_turn t i).append (ih ha.goesOn)

theorem chronicle_append (i : Nat) (turns more : List Turn) (a : App) :
    chronicle i (turns ++ more) a =
      chronicle i turns a ++ chronicle i more (turns.foldl turned a) := by
  induction turns generalizing a with
  | nil => rfl
  | cons t turns ih =>
    rw [List.cons_append, chronicle, chronicle, ih, List.append_assoc]
    rfl

end Courses

end Switchboard.App
