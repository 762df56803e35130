import Switchboard.Proofs.Foreign.Handles
/-!
# Sends that are refused, and sends that use their message up

A host sends by raw numbers. The boundary refuses a send when the callback is neither null nor
there, and otherwise when the message is not there or is of another kind; then nothing at all has
happened. Any other send uses its message up, whatever comes of it, and nothing brings the message
back: its number is refused from then on.
-/
namespace Switchboard

section Logs

variable {ε α : Type} {comes : ε → Option (Handle × α)} {ends : Handle → ε → Bool}
  {log more : List ε} {handle : Handle} {value other : α}

/-- Where numbers ascend, a handle that once stood for a value and then for none stands for none
ever after. -/
theorem not_standsFor_append
    (h : ((log ++ more).filterMap comes).Pairwise fun given later => given.1.raw < later.1.raw)
    (hcame : (handle, value) ∈ log.filterMap comes)
    (hgone : ∀ other, ¬ StandsFor comes ends log handle other) :
    ¬ StandsFor comes ends (log ++ more) handle other := by
  rintro ⟨before, entry, after, hlog, hentry, hafter⟩
  have hnever : entry ∉ more := by
    intro hmem
    have hagain : (handle, other) ∈ more.filterMap comes :=
      List.mem_filterMap.mpr ⟨entry, hmem, hentry⟩
    rw [List.filterMap_append, List.pairwise_append] at h
    exact absurd (h.2.2 _ hcame _ hagain) (UInt64.lt_irrefl _)
  rcases List.append_eq_append_iff.mp hlog with ⟨middle, rfl, hmore⟩ | ⟨middle, rfl, hrest⟩
  · exact hnever (by simp [hmore])
  · rcases List.cons_eq_append_iff.mp hrest with ⟨rfl, hmore⟩ | ⟨rest, rfl, hmore⟩
    · exact hnever (by simp [hmore])
    · refine hgone other ⟨before, entry, rest, rfl, hentry, fun later hlater => ?_⟩
      exact hafter later (by rw [hmore]; exact List.mem_append_left _ hlater)

end Logs

namespace App

/-- What is wrong with a send. The callback is looked for at first; a callback that is null or there
leaves it to the message. -/
inductive Sending.Wrong (s : Sending) (b : Boundary) : UInt64 → UInt64 → String → Prop
  | deadCallback (message : UInt64) (handle : Handle) (h : b.callbacks.get? handle = none) :
    s.Wrong b message handle.raw (handle.text ++ " is not a live callback")
  | nullMessage (raw : UInt64) (listener : Option (Handle × Callback))
      (h : b.Listens raw listener) :
    s.Wrong b 0 raw (s.kind.text ++ " is required")
  | deadMessage (handle : Handle) (raw : UInt64) (listener : Option (Handle × Callback))
      (h : b.Listens raw listener) (hmsg : b.messages.get? handle = none) :
    s.Wrong b handle.raw raw (handle.text ++ " does not refer to a live message")
  | otherKind (handle : Handle) (msg : Message) (raw : UInt64)
      (listener : Option (Handle × Callback)) (h : b.Listens raw listener)
      (hmsg : b.messages.get? handle = some msg) (hkind : msg.kind ≠ s.kind) :
    s.Wrong b handle.raw raw
      (handle.text ++ " is a " ++ msg.kind.text ++ ", expected " ++ s.kind.text)

/-- A send with which nothing is wrong: the message is there and of the right kind, and the callback
is null or there. -/
structure Sending.Right (s : Sending) (b : Boundary) (message raw : UInt64) (handle : Handle)
    (msg : Message) (listener : Option (Handle × Callback)) : Prop where
  number : message = handle.raw
  found : b.messages.get? handle = some msg
  kind : msg.kind = s.kind
  listens : b.Listens raw listener

variable {a : App} {i : Nat} {s : Sending} {b : Boundary} {message raw : UInt64}

section Boundaries

/-- A number is null or that of a handle. -/
theorem raw_cases (raw : UInt64) : raw = 0 ∨ ∃ handle : Handle, raw = handle.raw := by
  by_cases h : raw = 0
  · exact Or.inl h
  · exact Or.inr ⟨⟨raw, h⟩, rfl⟩

/-- A callback is null or there, or its number is that of a handle that stands for none. -/
theorem listens_or_dead (b : Boundary) (raw : UInt64) :
    (∃ listener, b.Listens raw listener) ∨
      ∃ handle : Handle, raw = handle.raw ∧ b.callbacks.get? handle = none := by
  rcases raw_cases raw with rfl | ⟨handle, rfl⟩
  · exact Or.inl ⟨none, rfl⟩
  · cases hfound : b.callbacks.get? handle with
    | some callback => exact Or.inl ⟨some (handle, callback), rfl, hfound⟩
    | none => exact Or.inr ⟨handle, rfl, hfound⟩

/-- Something is wrong with a send, or all is right. -/
theorem Sending.wrong_or_right (s : Sending) (b : Boundary) (message raw : UInt64) :
    (∃ text, s.Wrong b message raw text) ∨
      ∃ handle msg listener, s.Right b message raw handle msg listener := by
  rcases listens_or_dead b raw with ⟨listener, hlistens⟩ | ⟨handle, rfl, hdead⟩
  · rcases raw_cases message with rfl | ⟨handle, rfl⟩
    · exact Or.inl ⟨_, .nullMessage raw listener hlistens⟩
    · cases hfound : b.messages.get? handle with
      | none => exact Or.inl ⟨_, .deadMessage handle raw listener hlistens hfound⟩
      | some msg =>
        by_cases hkind : msg.kind = s.kind
        · exact Or.inr ⟨handle, msg, listener, rfl, hfound, hkind, hlistens⟩
        · exact Or.inl ⟨_, .otherKind handle msg raw listener hlistens hfound hkind⟩
  · exact Or.inl ⟨_, .deadCallback message handle hdead⟩

/-- A handle that stands for no message is refused by every send, whatever callback comes along. -/
theorem Sending.exists_wrong_of_dead {handle : Handle} (h : b.messages.get? handle = none)
    (s : Sending) (raw : UInt64) : ∃ text, s.Wrong b handle.raw raw text := by
  rcases listens_or_dead b raw with ⟨listener, hlistens⟩ | ⟨other, rfl, hdead⟩
  · exact ⟨_, .deadMessage handle raw listener hlistens h⟩
  · exact ⟨_, .deadCallback handle.raw other hdead⟩

/-- What the boundary says when something is wrong. -/
theorem Sending.Wrong.refusal {text : String} (h : s.Wrong b message raw text) :
    b.callback? raw = .error (.invalidArgument text) ∨
      ∃ listener, b.callback? raw = .ok listener ∧
        b.takeKind message s.kind = (.error (.invalidArgument text), b) := by
  cases h with
  | deadCallback message handle hdead =>
    refine Or.inl ?_
    rw [Boundary.callback?, Handle.ofRaw?_raw]
    dsimp only
    rw [hdead]
  | nullMessage raw listener hlistens =>
    exact Or.inr ⟨listener, callback?_of_listens hlistens, rfl⟩
  | deadMessage handle raw listener hlistens hmsg =>
    refine Or.inr ⟨listener, callback?_of_listens hlistens, ?_⟩
    rw [Boundary.takeKind, Handle.ofRaw?_raw]
    dsimp only
    rw [hmsg]
  | otherKind handle msg raw listener hlistens hmsg hkind =>
    refine Or.inr ⟨listener, callback?_of_listens hlistens, ?_⟩
    rw [Boundary.takeKind, Handle.ofRaw?_raw]
    dsimp only
    rw [hmsg]
    exact if_neg hkind

end Boundaries

section Sends

/-- How a send comes out by what its boundary says. -/
structure ComesOut (a : App) (i : Nat) (s : Sending) (message raw : UInt64) (out : Answer × App) :
    Prop where
  /-- a send with which something is wrong is told that and has done nothing -/
  refused : ∀ text, s.Wrong (a.boundaries.getD i {}) message raw text →
    out = (.status (.ofFault (.invalidArgument text)), a)
  /-- any other send uses its message up -/
  used : ∀ handle msg listener,
    s.Right (a.boundaries.getD i {}) message raw handle msg listener →
      out.2.boundaries = a.boundaries.setIfInBounds i { a.boundaries.getD i {} with
        messages := (a.boundaries.getD i {}).messages.erase handle }

theorem comesOut_sendForeign {α : Type}
    {send : Message → Option (Handle × Callback) → Program (Except Fault α)}
    (hsend : ∀ msg listener b, ((send msg listener).run b).2.boundaries = b.boundaries) :
    ComesOut a i s message raw
      ((do return Answer.status (.ofResult (← Program.sendForeign i message raw s.kind send))).run
        a) := by
  change ComesOut a i s message raw (((Program.sendForeign i message raw s.kind send).run a).map
    (fun result => .status (.ofResult result)) id)
  rw [run_sendForeign]
  constructor
  · intro text hwrong
    rcases hwrong.refusal with hcallback | ⟨listener, hcallback, htaken⟩
    · rw [hcallback]
      rfl
    · rw [hcallback, htaken]
      dsimp only
      rw [setIfInBounds_getD]
      rfl
  · intro handle msg listener hright
    obtain rfl := hright.number
    rw [callback?_of_listens hright.listens]
    dsimp only
    rw [takeKind_of_live hright.found hright.kind]
    exact hsend _ _ _

theorem comesOut_call (a : App) (i : Nat) (s : Sending) (message raw : UInt64) :
    ComesOut a i s message raw ((Program.foreignAt i (s.call message raw)).run a) := by
  obtain ⟨α, send, hcall, hsend⟩ := exists_foreignAt_call i s message raw
  rw [hcall]
  exact comesOut_sendForeign hsend

/-- Where there is a message there is a boundary. -/
theorem lt_size_of_get? {handle : Handle} {msg : Message}
    (h : (a.boundaries.getD i {}).messages.get? handle = some msg) : i < a.boundaries.size := by
  by_contra hout
  rw [Array.getD_eq_getD_getElem?, Array.getElem?_eq_none (Nat.le_of_not_lt hout)] at h
  cases h

/-- A message that was used up is gone at once. -/
theorem get?_of_used {handle : Handle} {msg : Message} {listener : Option (Handle × Callback)}
    (h : s.Right (a.boundaries.getD i {}) message raw handle msg listener) :
    let after := ((Program.foreignAt i (s.call message raw)).run a).2
    (after.boundaries.getD i {}).messages.get? handle = none := by
  intro after
  have hafter : after.boundaries = _ := (comesOut_call a i s message raw).used handle msg listener h
  rw [hafter, getD_setIfInBounds, if_pos ⟨rfl, lt_size_of_get? h.found⟩]
  exact HandleRegistry.get?_erase_self _ handle

end Sends

section Courses

variable {config : Config} {name : Option String} {properties : String} {extension : Extension}
  {built : App} {handle : Handle} {msg : Message} {listener : Option (Handle × Callback)}

theorem Sending.Right.fates (h : s.Right b message raw handle msg listener) :
    s.fates b message raw = [.used handle listener] := by
  rw [Sending.fates, h.number, Handle.ofRaw?_raw, callback?_of_listens h.listens]
  dsimp only
  rw [h.found, Option.any_some, if_pos (decide_eq_true h.kind)]

/-- What is added to the chronicle by a send that uses its message up. -/
theorem chronicle_used {turns : List Turn} (hhost : (turns.foldl turned built).hostNumber = i)
    (h : s.Right (boundaryAfter built turns i) message raw handle msg listener) :
    chronicle i (turns ++ [Turn.host (s.call message raw)]) built =
      chronicle i turns built ++ [.used handle listener] := by
  rw [chronicle_append, chronicle, chronicle, List.append_nil, Turn.fates, if_pos hhost,
    fates_call, host_eq_getD, hhost]
  exact congrArg _ h.fates

/-- A message that a host has used up does not come back, as long as there are numbers. -/
theorem get?_boundaryAfter_of_used (hbuilt : build config name properties extension = .ok built)
    {turns later : List Turn} (hhost : (turns.foldl turned built).hostNumber = i)
    (hroom : (chronicle i (turns ++ .host (s.call message raw) :: later) built).countP
      Fate.fillsMessages < 2 ^ 64 - 1)
    (h : s.Right (boundaryAfter built turns i) message raw handle msg listener) :
    (boundaryAfter built (turns ++ .host (s.call message raw) :: later) i).messages.get? handle =
      none := by
  have hlog : chronicle i (turns ++ .host (s.call message raw) :: later) built =
      (chronicle i turns built ++ [Fate.used handle listener]) ++
        chronicle i later ((turns ++ [Turn.host (s.call message raw)]).foldl turned built) := by
    rw [← chronicle_used hhost h, ← chronicle_append, List.append_assoc, List.singleton_append]
  have hlast := messages_chronicled hbuilt _ i hroom
  rw [hlog] at hroom hlast
  have hfirst : (boundaryAfter built turns i).MessagesChronicled (chronicle i turns built) := by
    refine messages_chronicled hbuilt turns i (Nat.lt_of_le_of_lt ?_ hroom)
    simp only [List.countP_append]
    omega
  have hcame : (handle, msg) ∈
      (chronicle i turns built ++ [Fate.used handle listener]).filterMap Fate.message? := by
    rw [List.filterMap_append]
    exact List.mem_append_left _ ((hfirst.standsFor handle msg).mp h.found).mem
  have hgone (other : Message) : ¬ StandsFor Fate.message? Fate.endsMessage
      (chronicle i turns built ++ [Fate.used handle listener]) handle other := by
    rw [standsFor_append_singleton]
    rintro (hnew | ⟨-, hkept⟩)
    · cases hnew
    · simp [Fate.endsMessage] at hkept
  refine Option.eq_none_iff_forall_ne_some.mpr fun other hfound => ?_
  exact not_standsFor_append hlast.ascending hcame hgone ((hlast.standsFor handle other).mp hfound)

end Courses

/-- Whatever numbers a host sends by, and whatever its application and its boundary have come to:
with a callback that is neither null nor there, and otherwise with a message that is null, not there
or of another kind, it is told that its argument is invalid and why, and everything is as it was.

Any other send uses its message up and does nothing else to boundaries. From then on something is
wrong with every send by the same number: at once, and also after whatever has happened since, if
the application was built and there were fewer than `2 ^ 64 - 1` messages to be given numbers. -/
theorem sends_refused_or_use_up (s : Sending) (message raw : UInt64) :
    (∀ (a : App) (i : Nat) (text : String), s.Wrong (a.boundaries.getD i {}) message raw text →
      (Program.foreignAt i (s.call message raw)).run a =
        (.status (.ofFault (.invalidArgument text)), a)) ∧
    (∀ (a : App) (i : Nat), (¬ ∃ text, s.Wrong (a.boundaries.getD i {}) message raw text) →
      let b := a.boundaries.getD i {}
      let after := ((Program.foreignAt i (s.call message raw)).run a).2
      (∃ handle msg listener, s.Right b message raw handle msg listener ∧ after.boundaries =
        a.boundaries.setIfInBounds i { b with messages := b.messages.erase handle }) ∧
      ∀ (again : Sending) (raw' : UInt64), ∃ text,
        again.Wrong (after.boundaries.getD i {}) message raw' text) ∧
    (∀ config name properties extension built,
      build config name properties extension = .ok built →
      ∀ (turns later : List Turn) (i : Nat),
      (turns.foldl turned built).hostNumber = i →
      (chronicle i (turns ++ .host (s.call message raw) :: later) built).countP
        Fate.fillsMessages < 2 ^ 64 - 1 →
      (¬ ∃ text, s.Wrong (boundaryAfter built turns i) message raw text) →
      let last := boundaryAfter built (turns ++ .host (s.call message raw) :: later) i
      ∀ (again : Sending) (raw' : UInt64), ∃ text, again.Wrong last message raw' text) := by
  refine ⟨fun a i => (comesOut_call a i s message raw).refused, ?_, ?_⟩
  · intro a i hnothing b after
    obtain ⟨handle, msg, listener, hright⟩ := (s.wrong_or_right b message raw).resolve_left hnothing
    have hafter := (comesOut_call a i s message raw).used handle msg listener hright
    have hdead := get?_of_used hright
    refine ⟨⟨handle, msg, listener, hright, hafter⟩, fun again raw' => ?_⟩
    obtain rfl := hright.number
    exact again.exists_wrong_of_dead hdead raw'
  · intro config name properties extension built hbuilt turns later i hhost hroom hnothing last
      again raw'
    obtain ⟨handle, msg, listener, hright⟩ := (s.wrong_or_right _ message raw).resolve_left hnothing
    have hdead := get?_boundaryAfter_of_used hbuilt hhost hroom hright
    obtain rfl := hright.number
    exact again.exists_wrong_of_dead hdead raw'

/-- A host sends a command, and later the same number as whatever and with whatever callback. That is
wrong at once, and also after the result of the command has come. -/
theorem hosting_sent_twice :
    ∃ turns later, hosting = turns ++ .host ((Sending.cmd false).call 1 1) :: later ∧
      let a := turns.foldl turned responding
      let after := ((Program.foreignAt 0 ((Sending.cmd false).call 1 1)).run a).2
      (∃ handle msg listener,
        (Sending.cmd false).Right (a.boundaries.getD 0 {}) 1 1 handle msg listener) ∧
      ∀ (again : Sending) (raw : UInt64),
        (∃ text, again.Wrong (after.boundaries.getD 0 {}) 1 raw text) ∧
        ∃ text, again.Wrong (boundaryAfter responding hosting 0) 1 raw text := by
  obtain ⟨hrefused, huses, hlasts⟩ := sends_refused_or_use_up (.cmd false) 1 1
  have hbuilt : build {} (some "echo") "" .responder = .ok responding := rfl
  have hhost : ((hosting.take 3).foldl turned responding).hostNumber = 0 := by decide +kernel
  have hroom : (chronicle 0 hosting responding).countP Fate.fillsMessages = 4 := by decide +kernel
  have hok : (match ((Program.foreignAt 0 ((Sending.cmd false).call 1 1)).run
      ((hosting.take 3).foldl turned responding)).1 with
      | .status status => decide (status = .ok)
      | _ => false) = true := by
    decide +kernel
  have hnothing : ¬ ∃ text, (Sending.cmd false).Wrong
      (((hosting.take 3).foldl turned responding).boundaries.getD 0 {}) 1 1 text := by
    rintro ⟨text, hwrong⟩
    rw [hrefused _ 0 text hwrong] at hok
    cases of_decide_eq_true hok
  obtain ⟨⟨handle, msg, listener, hright, -⟩, hatOnce⟩ := huses _ 0 hnothing
  have hever := hlasts {} _ "" .responder responding hbuilt (hosting.take 3) (hosting.drop 4) 0 hhost
    (Nat.lt_of_le_of_lt (Nat.le_of_eq hroom) (by decide)) hnothing
  exact ⟨hosting.take 3, hosting.drop 4, rfl, ⟨handle, msg, listener, hright⟩, fun again raw =>
    ⟨hatOnce again raw, hever again raw⟩⟩

end App

end Switchboard
