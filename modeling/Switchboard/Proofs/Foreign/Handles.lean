import Switchboard.Proofs.Foreign.Completions
import Switchboard.Proofs.Foreign.Meanings
/-!
# Handles are neither leaked nor revived

A message is there from the time when the host made it or was given it as a result until the host
takes it, releases it or sends it. A callback is there from the time when it was registered until
the host releases it, or an operation that it was given to has come to its end. Nothing else makes
handles or forgets them, and none is given out twice.
-/
namespace Switchboard.App

variable {a : App} {i j : Nat} {handle : Handle} {callback : Callback}

section Hosts

/-- A send makes somebody wait with its callback only, and only if its message is used up. -/
theorem expects_sendForeign {α : Type} {s : Sending} {message raw : UInt64}
    {send : Message → Option (Handle × Callback) → Program (Except Fault α)}
    (hsend : ∀ msg listener b, ExpectsOnly b ((send msg listener).run b).2 i listener)
    (h : ((Program.sendForeign i message raw s.kind send).run a).2.Expects j handle callback) :
    a.Expects j handle callback ∨
      j = i ∧ ∃ used, .used used (some (handle, callback)) ∈
        s.fates (a.boundaries.getD i {}) message raw := by
  rw [run_sendForeign] at h
  rw [Sending.fates]
  cases hlistener : (a.boundaries.getD i {}).callback? raw with
  | error e =>
    rw [hlistener] at h
    exact Or.inl h
  | ok listener =>
    rw [hlistener] at h
    dsimp only at h
    rcases takeKind_cases message s.kind (a.boundaries.getD i {}) with
      ⟨e, htaken, -⟩ | ⟨used, msg, hraw, hfound, hkind, htaken⟩
    · rw [htaken] at h
      exact Or.inl h
    · rw [htaken] at h
      rcases hsend _ _ _ j handle callback h with hold | ⟨rfl, rfl⟩
      · exact Or.inl hold
      · refine Or.inr ⟨rfl, used, ?_⟩
        rw [hraw]
        dsimp only
        rw [hfound, Option.any_some, if_pos (decide_eq_true hkind)]
        exact List.mem_singleton.mpr rfl

/-- Nobody waits newly with a callback unless the host has sent a message with it. -/
theorem expects_foreignAt {call : ForeignCall}
    (h : ((Program.foreignAt i call).run a).2.Expects j handle callback) :
    a.Expects j handle callback ∨
      j = i ∧ ∃ used, .used used (some (handle, callback)) ∈
        call.fates (a.boundaries.getD i {}) ((Program.foreignAt i call).run a).1 := by
  have hmimics {α : Type} {p : Program α} (hp : Mimics "" p p) {answer : α → Answer}
      (hwaits : ((do return answer (← p)).run a).2.Expects j handle callback) :
      a.Expects j handle callback := (hp.expectsOnly a i none).expects hwaits
  have honeWay (msg : Message) (listener : Option (Handle × Callback)) (b : App) :=
    expectsOnly_send i listener msg b
  cases call with
  | create msg => exact Or.inl h
  | callback c => exact Or.inl h
  | take raw => exact Or.inl h
  | releaseMessage raw => exact Or.inl h
  | releaseCallback raw => exact Or.inl h
  | live => exact Or.inl h
  | sendCmd message raw streaming =>
    refine expects_sendForeign (s := .cmd streaming) (fun msg listener b => ?_) h
    cases msg with
    | cmd cmd => exact expectsOnly_sendCmd i listener cmd streaming b
    | cmdResult | data | audioFrame | videoFrame => exact fun _ _ _ => Or.inl
  | sendData message raw => exact expects_sendForeign (s := .data) honeWay h
  | sendAudioFrame message raw => exact expects_sendForeign (s := .audioFrame) honeWay h
  | sendVideoFrame message raw => exact expects_sendForeign (s := .videoFrame) honeWay h
  | returnResult message raw =>
    refine expects_sendForeign (s := .result) (fun msg listener b => ?_) h
    cases msg with
    | cmdResult result => exact expectsOnly_returnResult i listener result b
    | cmd | data | audioFrame | videoFrame => exact fun _ _ _ => Or.inl
  | stop => exact Or.inl (hmimics (mimics_stop false) h)
  | startDone => exact Or.inl (hmimics (mimics_acknowledge .start) h)
  | stopDone => exact Or.inl (hmimics (mimics_acknowledge .stop) h)
  | deinitDone => exact Or.inl (hmimics (mimics_acknowledge .deinit) h)
  | log level site message => exact Or.inl (hmimics (mimics_log level site message) h)
  | drop => exact Or.inl h

theorem Grounded.expects_foreign (ha : a.Grounded) {call : ForeignCall}
    (h : ((Program.foreign call).run a).2.Expects j handle callback) :
    a.Expects j handle callback ∨
      ∃ used, .used used (some (handle, callback)) ∈ (Turn.host call).fates a j := by
  by_cases hcall : call = .drop ∧ a.boundary = none
  · obtain ⟨rfl, hnone⟩ := hcall
    rw [run_foreign_drop hnone] at h
    exact Or.inl h
  · obtain ⟨i, b, hrun, hreceived⟩ := ha.exists_received
    have hnumber : a.hostNumber = i := by rw [← run_currentBoundary_fst, hrun]
    have hforeign := run_foreign hrun (not_and_or.mp hcall)
    rw [hforeign] at h
    rcases expects_foreignAt h with hold | ⟨rfl, hused⟩
    · rw [hreceived.eq] at hold
      exact Or.inl hold
    · rw [Turn.fates, if_pos hnumber, hforeign, ← hreceived.host]
      exact Or.inr hused

end Hosts

section Turns

/-- A worker makes nobody wait with a callback. -/
theorem Grounded.expects_task (ha : a.Grounded) (side : Side)
    (h : (a.turned (.task side)).Expects j handle callback) : a.Expects j handle callback := by
  have honly : ExpectsOnly a (a.turned (.task side)) j none := by
    obtain ⟨events, more, htold⟩ := @Grounded.exists_told_advance "" a [] ha side
    refine expectsOnly_of_queue (fun k i listener hwaits => Or.inl ?_)
      (queuesOnly_advance (allowsOwn_sentFor j none) side a)
    exact hears_setWorker.mp (htold.hears k i listener hwaits)
  exact honly.expects h

/-- Neither does a plain turn. -/
theorem expects_plain {t : Turn} (ht : t.isPlain)
    (h : (a.turned t).Expects j handle callback) : a.Expects j handle callback := by
  have honly : ExpectsOnly a (a.turned t) j none := by
    obtain ⟨events, hmirrored⟩ := @Turn.follows "" t ht a []
    exact expectsOnly_of_queue
      (fun k i listener hwaits => Or.inl (hmirrored.hears k i listener hwaits))
      (Turn.queuesOnly (allowsOwn_sentFor j none) ht a)
  exact honly.expects h

/-- Whoever waits newly with a callback has it from a send of the host. -/
theorem Grounded.expects_turned (ha : a.Grounded) (t : Turn)
    (h : (a.turned t).Expects j handle callback) :
    a.Expects j handle callback ∨
      ∃ used, .used used (some (handle, callback)) ∈ t.fates a j := by
  cases t with
  | host call => exact ha.expects_foreign h
  | task side => exact Or.inl (ha.expects_task side h)
  | step | start | answer | flush | abort | shutDown | leave => exact Or.inl (expects_plain rfl h)

/-- What a host asks for ends no operation. -/
theorem not_ended_mem_foreign (call : ForeignCall) (b : Boundary) (answer : Answer) :
    .ended handle callback ∉ call.fates b answer := by
  have hsend (s : Sending) (message raw : UInt64) :
      .ended handle callback ∉ s.fates b message raw := by
    rw [Sending.fates]
    split
    · split
      · simp
      · exact List.not_mem_nil
    · exact List.not_mem_nil
  cases call with
  | create msg => simp [ForeignCall.fates]
  | callback c => simp [ForeignCall.fates]
  | take raw => simp [ForeignCall.fates]
  | releaseMessage raw => simp [ForeignCall.fates]
  | releaseCallback raw => simp [ForeignCall.fates]
  | sendCmd message raw streaming => exact hsend _ message raw
  | sendData message raw => exact hsend _ message raw
  | sendAudioFrame message raw => exact hsend _ message raw
  | sendVideoFrame message raw => exact hsend _ message raw
  | returnResult message raw => exact hsend _ message raw
  | drop =>
    rw [ForeignCall.fates]
    split
    · simp
    · exact List.not_mem_nil
  | live | stop | startDone | stopDone | deinitDone | log => exact List.not_mem_nil

theorem listener_of_ended {job : Job} {given : Option Handle}
    {listener : Option (Handle × Callback)}
    (h : .ended handle callback ∈ job.fates given listener) :
    listener = some (handle, callback) := by
  cases job with
  | resume k outcome terminal =>
    rcases listener with _ | ⟨other, told⟩
    · cases outcome with
      | ok result => cases List.mem_singleton.mp h
      | error fault => cases h
    · cases outcome with
      | ok result =>
        rcases List.mem_append.mp h with hpresented | hended
        · simp at hpresented
        · split at hended
          · cases List.mem_singleton.mp hended
            rfl
          · cases hended
      | error fault =>
        cases List.mem_singleton.mp h
        rfl
  | completion c =>
    rcases listener with _ | ⟨other, told⟩
    · cases h
    · cases List.mem_singleton.mp h
      rfl
  | arrival | initExtension | startExtension | phase => cases h

/-- Whoever a job is for waits with the callback. -/
theorem expects_of_listenerOf {side : Side} {job : Job}
    (hnext : (a.worker side).next.1 = some (.job job))
    (h : a.listenerOf job = some (i, some (handle, callback))) : a.Expects i handle callback := by
  have hqueued : .job job ∈ (a.worker side).queue := by
    rw [Worker.next] at hnext
    split at hnext
    · cases hnext
    · next hqueue =>
      cases hnext
      exact hqueue ▸ List.mem_cons_self
  cases job with
  | resume k outcome terminal =>
    have hslot := slot_of_listenerOf h
    exact Or.inl ⟨k, _, getElem?_of_slot hslot, hslot⟩
  | completion c =>
    cases c with
    | foreign i other told =>
      cases h
      exact Or.inr ⟨side, hqueued⟩
    | scripted ack => cases h
    | promise k => cases h
  | arrival | initExtension | startExtension | phase => cases h

/-- Who is told that an operation has come to its end has waited for that. -/
theorem expects_of_ended {t : Turn} (h : .ended handle callback ∈ t.fates a i) :
    a.Expects i handle callback := by
  cases t with
  | host call =>
    rw [Turn.fates] at h
    split at h
    · exact absurd h (not_ended_mem_foreign _ _ _)
    · cases h
  | task side =>
    rw [Turn.fates] at h
    split at h
    · next job hnext =>
      split at h
      · next j listener haddressed =>
        split at h
        · next heq =>
          subst heq
          rw [listener_of_ended h] at haddressed
          exact expects_of_listenerOf hnext haddressed
        · cases h
      · cases h
    · cases h
    · cases h
  | step | start | answer | flush | abort | shutDown | leave => cases h

end Turns

section Courses

/-- Every end of an operation comes after a send with that callback. -/
def Founded (before fates : List Fate) : Prop :=
  ∀ earlier handle callback later, fates = earlier ++ .ended handle callback :: later →
    ∃ used, .used used (some (handle, callback)) ∈ before ++ earlier

theorem Founded.append {before fates more : List Fate} (h : Founded before fates)
    (h' : Founded (before ++ fates) more) : Founded before (fates ++ more) := by
  intro earlier handle callback later heq
  rcases List.append_eq_append_iff.mp heq with ⟨middle, rfl, hmore⟩ | ⟨middle, hfates, hlater⟩
  · rw [← List.append_assoc]
    exact h' middle handle callback later hmore
  · rcases List.cons_eq_append_iff.mp hlater with ⟨rfl, hmore⟩ | ⟨rest, rfl, hmore⟩
    · rw [List.append_nil] at hfates
      subst hfates
      obtain ⟨used, hused⟩ := h' [] handle callback later hmore
      exact ⟨used, by rwa [List.append_nil] at hused⟩
    · exact h earlier handle callback rest hfates

/-- Whoever waits with a callback has it from a send. -/
def Traced (a : App) (i : Nat) (log : List Fate) : Prop :=
  ∀ handle callback, a.Expects i handle callback →
    ∃ used, .used used (some (handle, callback)) ∈ log

theorem Grounded.founded_course (ha : a.Grounded) {log : List Fate} (h : a.Traced i log)
    (turns : List Turn) : Founded log (chronicle i turns a) := by
  induction turns generalizing a log with
  | nil =>
    intro earlier handle callback later heq
    cases earlier <;> cases heq
  | cons t turns ih =>
    refine Founded.append (fun earlier handle callback later heq => ?_) (ih ha.goesOn ?_)
    · have hended : .ended handle callback ∈ t.fates a i := by
        rw [heq]
        exact List.mem_append_right _ List.mem_cons_self
      obtain ⟨used, hused⟩ := h handle callback (expects_of_ended hended)
      exact ⟨used, List.mem_append_left _ hused⟩
    · intro handle callback hwaits
      rcases ha.expects_turned t hwaits with hold | ⟨used, hused⟩
      · obtain ⟨used, hused⟩ := h handle callback hold
        exact ⟨used, List.mem_append_left _ hused⟩
      · exact ⟨used, List.mem_append_right _ hused⟩

end Courses

/-- A boundary of an application that was built, after some turns. -/
def boundaryAfter (built : App) (turns : List Turn) (i : Nat) : Boundary :=
  (turns.foldl turned built).boundaries.getD i {}

/-- After some turns, a host finds on its boundary what the chronicle of the turns says, as long as
there were fewer than `2 ^ 64 - 1` messages, or callbacks, to be given numbers. -/
structure KeepsHandles (built : App) (turns : List Turn) (i : Nat) : Prop where
  /-- a message is there from when the host made it or was given it until it is taken, released or
  sent -/
  messages : (chronicle i turns built).countP Fate.fillsMessages < 2 ^ 64 - 1 →
    ∀ handle msg, (boundaryAfter built turns i).messages.get? handle = some msg ↔
      StandsFor Fate.message? Fate.endsMessage (chronicle i turns built) handle msg
  /-- a callback is there from when it was registered until it is released or told of an end -/
  callbacks : (chronicle i turns built).countP Fate.fillsCallbacks < 2 ^ 64 - 1 →
    ∀ handle callback, (boundaryAfter built turns i).callbacks.get? handle = some callback ↔
      StandsFor Fate.callback? Fate.endsCallback (chronicle i turns built) handle callback
  /-- later messages have greater numbers -/
  messages_ascend : (chronicle i turns built).countP Fate.fillsMessages < 2 ^ 64 - 1 →
    ((chronicle i turns built).filterMap Fate.message?).Pairwise
      fun given later => given.1.raw < later.1.raw
  /-- later callbacks have greater numbers -/
  callbacks_ascend : (chronicle i turns built).countP Fate.fillsCallbacks < 2 ^ 64 - 1 →
    ((chronicle i turns built).filterMap Fate.callback?).Pairwise
      fun given later => given.1.raw < later.1.raw
  /-- at whatever times, a handle stands for one message only -/
  one_message : (chronicle i turns built).countP Fate.fillsMessages < 2 ^ 64 - 1 →
    ∀ m n handle msg other,
      (boundaryAfter built (turns.take m) i).messages.get? handle = some msg →
      (boundaryAfter built (turns.take n) i).messages.get? handle = some other → msg = other
  /-- at whatever times, a handle stands for one callback only -/
  one_callback : (chronicle i turns built).countP Fate.fillsCallbacks < 2 ^ 64 - 1 →
    ∀ m n handle callback other,
      (boundaryAfter built (turns.take m) i).callbacks.get? handle = some callback →
      (boundaryAfter built (turns.take n) i).callbacks.get? handle = some other → callback = other
  /-- an operation comes to its end for the callback that the host has sent it with -/
  founded : ∀ earlier handle callback later,
    chronicle i turns built = earlier ++ .ended handle callback :: later →
    ∃ used, .used used (some (handle, callback)) ∈ earlier
  /-- a send uses its message up just if that is there and of the right kind, and its callback is
  null or there -/
  used : ∀ (s : Sending) message raw listener, (turns.foldl turned built).hostNumber = i →
    (.used message listener ∈
        (Turn.host (s.call message.raw raw)).fates (turns.foldl turned built) i ↔
      (∃ msg, (boundaryAfter built turns i).messages.get? message = some msg ∧ msg.kind = s.kind) ∧
        (boundaryAfter built turns i).Listens raw listener)
  /-- a send leaves all callbacks in their places, whatever becomes of it -/
  sends : ∀ (s : Sending) message raw,
    (boundaryAfter built (turns ++ [.host (s.call message raw)]) i).callbacks =
      (boundaryAfter built turns i).callbacks
  /-- whoever a callback was given for by a send that succeeds, waits with it -/
  awaits : ∀ (s : Sending) message raw msg listener,
    (turns.foldl turned built).host.messages.get? message = some msg → msg.kind = s.kind →
    (turns.foldl turned built).host.Listens raw listener →
    ((Program.foreign (s.call message.raw raw)).run (turns.foldl turned built)).1 = .status .ok →
    ((turns.foldl turned built).turned (.host (s.call message.raw raw))).boundary = some i →
    ((turns.foldl turned built).turned (.host (s.call message.raw raw))).Awaits i listener
      (turns.foldl turned built).cells.size s
  /-- when a callback is called for the last time it is gone already, and until then it stays -/
  called : ∀ side job handle callback,
    (turns.foldl turned built).listenerOf job = some (i, some (handle, callback)) →
    ∃ prepared status given,
      (Program.runJob side job).run ((turns.foldl turned built).popped side) =
        (Program.callBack callback status given >>= fun ended =>
          job.afterwards i (some (handle, callback)) ended).run prepared ∧
      (job.isLast = true → (prepared.boundaries.getD i {}).callbacks.get? handle = none) ∧
      (job.isLast = false →
        (prepared.boundaries.getD i {}).callbacks = (boundaryAfter built turns i).callbacks)

section Built

variable {config : Config} {name : Option String} {properties : String} {extension : Extension}
  {built : App} {b c : Boundary} {fates : List Fate}

/-- A new application has no handles, and nobody waits there. -/
theorem fresh_of_build (hbuilt : build config name properties extension = .ok built) (i : Nat) :
    built.boundaries.getD i {} = {} ∧ built.Traced i [] := by
  obtain ⟨name, properties, rfl⟩ := eq_ofParts_of_build hbuilt
  refine ⟨rfl, ?_⟩
  rintro handle callback (⟨k, c, hfound, -⟩ | ⟨side, hqueued⟩)
  · simp [ofParts] at hfound
  · cases side
    · simp [ofParts, worker] at hqueued
    · simp [ofParts, worker] at hqueued

theorem grounded_of_build (hbuilt : build config name properties extension = .ok built) :
    built.Grounded :=
  have hrefines : Refines "" built built := refines_of_build hbuilt
  hrefines.grounded

/-- Callbacks stay when messages are used up. -/
theorem Boundary.SuffersAll.callbacks_eq (h : b.SuffersAll fates c)
    (hused : ∀ fate ∈ fates, ∃ message listener, fate = .used message listener) :
    c.callbacks = b.callbacks := by
  induction h with
  | nil b => rfl
  | cons hfate _ ih =>
    obtain ⟨message, listener, rfl⟩ := hused _ List.mem_cons_self
    rw [ih fun fate hmem => hused fate (List.mem_cons_of_mem _ hmem)]
    cases hfate
    rfl

theorem fates_call (s : Sending) (message raw : UInt64) (b : Boundary) (answer : Answer) :
    (s.call message raw).fates b answer = s.fates b message raw := by
  cases s <;> rfl

theorem used_of_mem_fates {s : Sending} {message raw : UInt64} {fate : Fate}
    (h : fate ∈ (Turn.host (s.call message raw)).fates a i) :
    ∃ message listener, fate = .used message listener := by
  rw [Turn.fates] at h
  split at h
  · rw [fates_call, Sending.fates] at h
    split at h
    · split at h
      · exact ⟨_, _, List.mem_singleton.mp h⟩
      · cases h
    · cases h
  · cases h

theorem chronicle_earlier (i : Nat) (turns : List Turn) (a : App) (n : Nat) :
    chronicle i (turns.take n) a <+: chronicle i turns a := by
  have happend := chronicle_append i (turns.take n) (turns.drop n) a
  rw [List.take_append_drop] at happend
  exact ⟨_, happend.symm⟩

theorem messages_chronicled (hbuilt : build config name properties extension = .ok built)
    (turns : List Turn) (i : Nat)
    (hroom : (chronicle i turns built).countP Fate.fillsMessages < 2 ^ 64 - 1) :
    (boundaryAfter built turns i).MessagesChronicled (chronicle i turns built) := by
  have hsuffers := (grounded_of_build hbuilt).suffers_course turns i
  rw [(fresh_of_build hbuilt i).1] at hsuffers
  exact hsuffers.keeps Boundary.Suffers.messages HandleRegistry.chronicled_empty
    (Nat.add_lt_of_lt_sub hroom)

theorem callbacks_chronicled (hbuilt : build config name properties extension = .ok built)
    (turns : List Turn) (i : Nat)
    (hroom : (chronicle i turns built).countP Fate.fillsCallbacks < 2 ^ 64 - 1) :
    (boundaryAfter built turns i).CallbacksChronicled (chronicle i turns built) := by
  have hsuffers := (grounded_of_build hbuilt).suffers_course turns i
  rw [(fresh_of_build hbuilt i).1] at hsuffers
  exact hsuffers.keeps Boundary.Suffers.callbacks HandleRegistry.chronicled_empty
    (Nat.add_lt_of_lt_sub hroom)

/-- Whatever an application that was built becomes, it becomes that by turns, and by whatever turns:
hosts ask for anything in any order, tasks are run, callbacks panic. Then handles are neither leaked
nor revived. A message or a callback is on a boundary exactly from when the host got its handle
until it gave that away or an end was told to it, and a handle never stands for anything else. -/
theorem handles_neither_leak_nor_revive
    (hbuilt : build config name properties extension = .ok built) :
    (∀ a, Reached built a →
      (∃ turns : List Turn, a = turns.foldl turned built) ∧
        ∀ e, ∃ turns : List Turn, a.ended e = turns.foldl turned built) ∧
    ∀ turns i, KeepsHandles built turns i := by
  have hgrounded := grounded_of_build hbuilt
  constructor
  · exact fun a ha => ⟨ha.exists_turns, fun e => ha.exists_turns_ended e⟩
  · intro turns i
    have hearlier (n : Nat) := chronicle_earlier i turns built n
    have hbefore {fills : Fate → Bool}
        (hroom : (chronicle i turns built).countP fills < 2 ^ 64 - 1) (n : Nat) :
        (chronicle i (turns.take n) built).countP fills < 2 ^ 64 - 1 :=
      Nat.lt_of_le_of_lt (hearlier n).sublist.countP_le hroom
    refine
      { messages := fun hroom => (messages_chronicled hbuilt turns i hroom).standsFor
        callbacks := fun hroom => (callbacks_chronicled hbuilt turns i hroom).standsFor
        messages_ascend := fun hroom => (messages_chronicled hbuilt turns i hroom).ascending
        callbacks_ascend := fun hroom => (callbacks_chronicled hbuilt turns i hroom).ascending
        one_message := fun hroom m n handle msg other hmsg hother => ?_
        one_callback := fun hroom m n handle callback other hcallback hother => ?_
        founded := fun earlier handle callback later heq => ?_
        used := fun s message raw listener hhost => ?_
        sends := fun s message raw => ?_
        awaits := fun s message raw msg listener hfound hkind hlistener hok hhost => ?_
        called := fun side job handle callback hlistener => ?_ }
    · have hascend := (messages_chronicled hbuilt turns i hroom).ascending
      exact (messages_chronicled hbuilt _ i (hbefore hroom m)).eq_of_earlier
        (messages_chronicled hbuilt _ i (hbefore hroom n)) hascend (hearlier m) (hearlier n)
        hmsg hother
    · have hascend := (callbacks_chronicled hbuilt turns i hroom).ascending
      exact (callbacks_chronicled hbuilt _ i (hbefore hroom m)).eq_of_earlier
        (callbacks_chronicled hbuilt _ i (hbefore hroom n)) hascend (hearlier m) (hearlier n)
        hcallback hother
    · obtain ⟨used, hused⟩ := hgrounded.founded_course (fresh_of_build hbuilt i).2 turns
        earlier handle callback later heq
      exact ⟨used, hused⟩
    · rw [Turn.fates, if_pos hhost, fates_call, host_eq_getD, hhost]
      exact used_mem_fates_iff
    · rw [boundaryAfter, List.foldl_append]
      exact ((hgrounded.course turns).suffers_turn (.host (s.call message raw)) i).callbacks_eq
        fun fate hmem => used_of_mem_fates hmem
    · obtain ⟨j, hboundary, hawaits⟩ :=
        (hgrounded.course turns).awaits_foreign hfound hkind hlistener hok
      obtain rfl : j = i := Option.some.inj (hboundary.symm.trans hhost)
      exact hawaits
    · exact (hgrounded.course turns).exists_called_next side hlistener

/-- The result of a ping is there under the third number. The callback for it is gone, and so is the
result that nobody has asked for. -/
theorem hosting_keeps_handles :
    ∃ ping pong : Handle, ping.raw = 1 ∧ pong.raw = 3 ∧
      (∃ msg, StandsFor Fate.message? Fate.endsMessage (chronicle 0 hosting responding) pong msg) ∧
      (∀ callback, ¬StandsFor Fate.callback? Fate.endsCallback (chronicle 0 hosting responding)
        ping callback) ∧
      (boundaryAfter responding hosting 0).messages.size = 1 := by
  have hbuilt : build {} (some "echo") "" .responder = .ok responding := rfl
  obtain ⟨-, hkeeps⟩ := handles_neither_leak_nor_revive hbuilt
  have hroom : (chronicle 0 hosting responding).countP Fate.fillsMessages = 4 ∧
      (chronicle 0 hosting responding).countP Fate.fillsCallbacks = 1 := by decide +kernel
  let ping : Handle := ⟨1, by decide⟩
  let pong : Handle := ⟨3, by decide⟩
  have hfound : ((boundaryAfter responding hosting 0).messages.get? pong).isSome = true ∧
      ((boundaryAfter responding hosting 0).callbacks.get? ping).isNone = true ∧
      (boundaryAfter responding hosting 0).messages.size = 1 := by decide +kernel
  obtain ⟨hpong, hping, hsize⟩ := hfound
  obtain ⟨msg, hmsg⟩ := Option.isSome_iff_exists.mp hpong
  refine ⟨ping, pong, rfl, rfl, ⟨msg, ?_⟩, fun callback hstands => ?_, hsize⟩
  · exact ((hkeeps hosting 0).messages (by rw [hroom.1]; decide) pong msg).mp hmsg
  · have hcallback :=
      ((hkeeps hosting 0).callbacks (by rw [hroom.2]; decide) ping callback).mpr hstands
    rw [Option.isNone_iff_eq_none.mp hping] at hcallback
    cases hcallback

end Built

end Switchboard.App
