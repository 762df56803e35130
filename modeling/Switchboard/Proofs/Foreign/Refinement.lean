import Switchboard.Proofs.Foreign.Hosts
import Switchboard.Proofs.Foreign.Turns
/-!
# Foreign hosts and typed testers

Beside an application that a foreign host drives another one goes on, in which a tester of the
program's own does what the host does. Where a host has a callback, the tester has a handler or a
completion that shows what it hears. Neither router nor workers tell the one from the other, and a
host is told of all that the tester shows, one by one and in the same order.
-/
namespace Switchboard.App

/-- What is done beside a turn. A tester does something in place of a host, or nothing where the
host changes its boundary only; everything else is done alike. -/
def Turn.instead? (nobody : String) (a : App) : Turn → Option Turn
  | host call => (call.instead? nobody a.host).map fun action => .step (.act action) rfl
  | t => some t

/-- What becomes of a second application beside a turn of the first, and what is answered there. -/
def Turn.beside (nobody : String) (a b : App) (t : Turn) : Option Answer × App :=
  match t.instead? nobody a with
  | some t' => (some (t'.perform.run b).1, b.turned t')
  | none => (none, b)

/-- Two applications that go on beside each other. -/
def alongside (nobody : String) : List Turn → App → App → App × App
  | [], a, b => (a, b)
  | t :: turns, a, b => alongside nobody turns (a.turned t) (t.beside nobody a b).2

/-- Both answer the same, but a host is told the status only. -/
def Turn.Answers (answer : Answer) (answer' : Option Answer) : Turn → Prop
  | host _ => ∀ x, answer' = some x → x.told.map .status = some answer
  | _ => answer' = some answer

/-- What two applications show by a turn: a task may tell one listener something. -/
def Turn.Shows (nobody : String) (a a' : App) (events more : List Event) : Turn → Prop
  | host _ => more = events
  | task side => Tells nobody a.boundaries a'.boundaries (a.addressee side) events more
  | _ => Tells nobody a.boundaries a'.boundaries none events more

/-- The application when a turn begins: the oldest task is no longer in the queue. -/
def Turn.begun (a : App) : Turn → App
  | task side => a.popped side
  | _ => a

/-- What a turn has made of two applications, and what they show by it. -/
structure Turn.Matches (nobody : String) (t : Turn) (a b : App) (events more : List Event) :
    Prop where
  eq_typed : (t.beside nobody a b).2 = (a.turned t).typed nobody (b.testerEvents ++ more)
  shows : (a.turned t).testerEvents = a.testerEvents ++ events
  answers : t.Answers (t.perform.run a).1 (t.beside nobody a b).1
  tells : t.Shows nobody a (a.turned t) events more
  ages : Ages a.boundaries (a.turned t).boundaries
  retains : Retains (t.begun a) (a.turned t)
  grounded : (a.turned t).Grounded

/-- What a host is told in a run, and what typed listeners show in its place. Everything else is
shown by both. -/
inductive Renders (nobody : String) : List Event → List Event → Prop where
  | nil : Renders nobody [] []
  | alike {events more : List Event} (h : Renders nobody events more) (event : Event) :
    Renders nobody (events ++ [event]) (more ++ [event])
  | result {events more : List Event} (h : Renders nobody events more) (tag : String)
    (new : Handle) (call : Nat) (result : CmdResult) :
    Renders nobody (events ++ [.callback tag .ok (some new)])
      (more ++ [.outcome tag call (.ok result)])
  | fault {events more : List Event} (h : Renders nobody events more) (tag : String) (call : Nat)
    (fault : Fault) :
    Renders nobody (events ++ [.callback tag (.ofFault fault) none])
      (more ++ [.outcome tag call (.error fault)])
  | completed {events more : List Event} (h : Renders nobody events more) (tag : String) :
    Renders nobody (events ++ [.callback tag .ok none]) (more ++ [.ack tag])
  | unheard {events more : List Event} (h : Renders nobody events more) (call : Nat)
    (outcome : Outcome) : Renders nobody events (more ++ [.outcome nobody call outcome])

/-- The second application is the first with typed listeners, and shows what a host is told in the
first. -/
structure Refines (nobody : String) (a b : App) : Prop where
  eq_typed : b = a.typed nobody b.testerEvents
  renders : Renders nobody a.testerEvents b.testerEvents
  grounded : a.Grounded

variable {nobody : String} {a b : App} {shown : List Event}

section Turns

/-- A plain turn is made in both applications. -/
theorem Turn.beside_of_plain {t : Turn} (h : t.isPlain) :
    t.beside nobody a b = (some (t.perform.run b).1, b.turned t) := by
  cases t with
  | host call => cases h
  | task side => cases h
  | step | start | answer | flush | abort | shutDown | leave => rfl

theorem Turn.answers_of_plain {t : Turn} (h : t.isPlain) (answer : Answer) :
    t.Answers answer (some answer) := by
  cases t with
  | host call => cases h
  | task side => cases h
  | step | start | answer | flush | abort | shutDown | leave => rfl

theorem Turn.shows_of_plain {t : Turn} (h : t.isPlain) {a' : App}
    (hboundaries : a'.boundaries = a.boundaries) (events : List Event) :
    t.Shows nobody a a' events events := by
  cases t with
  | host call => cases h
  | task side => cases h
  | step | start | answer | flush | abort | shutDown | leave => exact .alike events hboundaries

theorem Turn.begun_of_plain {t : Turn} (h : t.isPlain) : t.begun a = a := by
  cases t with
  | host call => cases h
  | task side => cases h
  | step | start | answer | flush | abort | shutDown | leave => rfl

theorem Grounded.exists_matches_plain (ha : a.Grounded) {t : Turn} (ht : t.isPlain) :
    ∃ events more, t.Matches nobody a (a.typed nobody shown) events more := by
  obtain ⟨events, hmirrored⟩ := @Turn.follows nobody t ht a shown
  have hboundaries : (a.turned t).boundaries = a.boundaries := hmirrored.boundaries
  have hrun : t.perform.run (a.typed nobody shown) =
      ((t.perform.run a).1, (a.turned t).typed nobody (shown ++ events)) := hmirrored.eq_typed
  refine ⟨events, events, ?_, hmirrored.shows, ?_, Turn.shows_of_plain ht hboundaries events,
    hboundaries ▸ ages_refl _, ?_, ha.mirrored hmirrored⟩
  · rw [Turn.beside_of_plain ht]
    exact congrArg Prod.snd hrun
  · rw [Turn.beside_of_plain ht, hrun]
    exact Turn.answers_of_plain ht _
  · rw [Turn.begun_of_plain ht]
    exact hmirrored.adds.retains

theorem Grounded.exists_matches_task (ha : a.Grounded) (side : Side) :
    ∃ events more, (Turn.task side).Matches nobody a (a.typed nobody shown) events more := by
  obtain ⟨events, more, htold⟩ := @Grounded.exists_told_advance nobody a shown ha side
  obtain ⟨hboundaries, hboundary, hevents⟩ := aside_setWorker a side (a.worker side).next.2
  have htells : Tells nobody a.boundaries (a.turned (.task side)).boundaries (a.addressee side)
      events more := by
    rw [← hboundaries]
    exact htold.tells
  have hsize : (a.turned (.task side)).boundaries.size = a.boundaries.size := by
    rw [← hboundaries]
    exact htold.size
  have hages : Ages a.boundaries (a.turned (.task side)).boundaries := by
    rw [← hboundaries]
    exact htold.ages
  refine ⟨events, more, htold.eq_typed, htold.shows.trans (congrArg (· ++ events) hevents),
    congrArg (some <| Answer.flag ·) htold.ends.symm, htells, hages, htold.retains,
    fun k i listener hhears => ?_, fun i hi => ?_⟩
  · rw [hsize]
    exact ha.hears k i listener (hears_setWorker.mp (htold.hears k i listener hhears))
  · rw [hsize]
    exact ha.boundary i (hboundary ▸ htold.boundary ▸ hi)

/-- What a host asks for is done in its place, or it changes its boundary only. -/
theorem Grounded.exists_matches_host (ha : a.Grounded) (call : ForeignCall) :
    ∃ events more, (Turn.host call).Matches nobody a (a.typed nobody shown) events more := by
  obtain ⟨b, hhosted, hdone⟩ := @Grounded.obeys_foreign nobody a shown ha call
  have hadds : Augments a b := by
    rw [hhosted.eq]
    exact augments_of_same (fun _ => rfl) rfl
  have hinstead : (Turn.host call).instead? nobody a =
    (call.instead? nobody a.host).map fun action => .step (.act action) rfl := rfl
  cases haction : call.instead? nobody a.host with
  | none =>
    rw [haction] at hdone hinstead
    have hturned : a.turned (.host call) = b := hdone
    refine ⟨[], [], ?_, ?_, ?_, rfl, ?_, ?_, ?_⟩
    · rw [Turn.beside, hinstead, hturned, List.append_nil, hhosted.typed_eq]
      rfl
    · rw [hturned, List.append_nil, hhosted.testerEvents]
    · rw [Turn.beside, hinstead]
      rintro _ ⟨⟩
    · exact hturned ▸ hhosted.ages
    · exact hturned ▸ hadds.retains
    · exact hturned ▸ hhosted.grounded
  | some action =>
    rw [haction] at hdone hinstead
    obtain ⟨events, hheeded⟩ := hdone
    rw [hhosted.typed_eq] at hheeded
    refine ⟨events, events, ?_, ?_, ?_, rfl, ?_, (hadds.trans hheeded.adds).retains,
      hheeded.grounded⟩
    · rw [Turn.beside, hinstead]
      exact hheeded.eq_typed
    · rw [← hhosted.testerEvents]
      exact hheeded.shows
    · rw [Turn.beside, hinstead]
      rintro _ ⟨⟩
      exact hheeded.answer
    · have hboundaries : (a.turned (.host call)).boundaries = b.boundaries := hheeded.boundaries
      rw [hboundaries]
      exact hhosted.ages

/-- Whatever happens to an application happens beside it to typed listeners. -/
theorem Grounded.exists_matches (ha : a.Grounded) (t : Turn) :
    ∃ events more, t.Matches nobody a (a.typed nobody shown) events more := by
  cases t with
  | host call => exact ha.exists_matches_host call
  | task side => exact ha.exists_matches_task side
  | step | start | answer | flush | abort | shutDown | leave => exact ha.exists_matches_plain rfl

end Turns

section Runs

theorem Renders.append {events more : List Event} (h : Renders nobody events more)
    (both : List Event) : Renders nobody (events ++ both) (more ++ both) := by
  induction both generalizing events more with
  | nil =>
    rw [List.append_nil, List.append_nil]
    exact h
  | cons event both ih =>
    have hnext := ih (h.alike event)
    rwa [List.append_assoc, List.append_assoc] at hnext

theorem Renders.tells {events more events' more' : List Event} {before after : Array Boundary}
    {listener : Option (Nat × Option (Handle × Callback))} (h : Renders nobody events more)
    (htells : Tells nobody before after listener events' more') :
    Renders nobody (events ++ events') (more ++ more') := by
  cases htells with
  | alike _ _ => exact h.append _
  | result handle callback harrives call => exact h.result callback.tag _ call _
  | fault i handle callback hmail fault call => exact h.fault callback.tag call fault
  | completed i handle callback hmail => exact h.completed callback.tag
  | unheard i hleaves outcome call =>
    rw [List.append_nil]
    exact h.unheard call outcome

theorem Renders.shows {events more events' more' : List Event} (h : Renders nobody events more)
    {t : Turn} {a' : App} (hshows : t.Shows nobody a a' events' more') :
    Renders nobody (events ++ events') (more ++ more') := by
  cases t with
  | host call =>
    obtain rfl : more' = events' := hshows
    exact h.append _
  | task side => exact h.tells hshows
  | step | start | answer | flush | abort | shutDown | leave => exact h.tells hshows

theorem Refines.exists_matches (h : Refines nobody a b) (t : Turn) :
    ∃ events more, t.Matches nobody a b events more := by
  have hmatches := @Grounded.exists_matches nobody a b.testerEvents h.grounded t
  rwa [← h.eq_typed] at hmatches

/-- One turn of both applications. -/
theorem Refines.turn (h : Refines nobody a b) (t : Turn) :
    Refines nobody (a.turned t) (t.beside nobody a b).2 := by
  obtain ⟨events, more, hmatches⟩ := h.exists_matches t
  rw [hmatches.eq_typed]
  refine ⟨rfl, ?_, hmatches.grounded⟩
  rw [hmatches.shows]
  exact h.renders.shows hmatches.tells

/-- All turns of both applications, one by one. -/
theorem Refines.course (h : Refines nobody a b) (turns : List Turn) :
    Refines nobody (alongside nobody turns a b).1 (alongside nobody turns a b).2 := by
  induction turns generalizing a b with
  | nil => exact h
  | cons t turns ih => exact ih (h.turn t)

theorem alongside_fst (nobody : String) (turns : List Turn) (a b : App) :
    (alongside nobody turns a b).1 = turns.foldl turned a := by
  induction turns generalizing a b with
  | nil => rfl
  | cons t turns ih => exact ih _ _

/-- Messages come under new numbers, unless there were very many turns before. -/
theorem Refines.young_alongside (h : Refines nobody a b) {turns : List Turn} {n : Nat}
    (hyoung : ∀ i, (a.boundaries.getD i {}).messages.Young ∧
      (a.boundaries.getD i {}).messages.next.toNat ≤ n + 1)
    (hn : n + turns.length + 1 < UInt64.size) (i : Nat) :
    ((alongside nobody turns a b).1.boundaries.getD i {}).messages.Young := by
  induction turns generalizing a b n with
  | nil => exact (hyoung i).1
  | cons t turns ih =>
    obtain ⟨events, more, hmatches⟩ := h.exists_matches t
    rw [List.length_cons] at hn
    refine ih (h.turn t) (fun j => ?_) (n := n + 1) (by omega)
    exact (hmatches.ages j).young_of_le (hyoung j).1 (hyoung j).2 (by omega)

end Runs

section Sends

/-- A host asks for something and a tester does it. The host is told the status of what the tester
is answered, both show the same, and everything is the same but for the listeners. -/
structure SentAlike (nobody : String) (a : App) (call : ForeignCall) (action : Action) : Prop where
  answer : ((Program.perform (.act action)).run a).1.told.map .status =
    some ((Program.foreign call).run a).1
  effect : ∀ shown, ((Program.foreign call).run a).2.typed nobody shown =
    ((Program.perform (.act action)).run a).2.typed nobody shown
  shows : ((Program.foreign call).run a).2.testerEvents =
    ((Program.perform (.act action)).run a).2.testerEvents

theorem Grounded.sentAlike (ha : a.Grounded) {call : ForeignCall} {action : Action}
    (h : call.instead? nobody a.host = some action) : SentAlike nobody a call action := by
  obtain ⟨b, hhosted, hdone⟩ := @Grounded.obeys_foreign nobody a [] ha call
  rw [h] at hdone
  obtain ⟨events, hheeded⟩ := hdone
  rw [hhosted.typed_eq] at hheeded
  obtain ⟨events', hmirrored⟩ := @Turn.follows nobody (.step (.act action) rfl) rfl a []
  have hrun : (Program.perform (.act action)).run (a.typed nobody []) =
      (((Program.perform (.act action)).run a).1,
        ((Program.perform (.act action)).run a).2.typed nobody ([] ++ events')) :=
    hmirrored.eq_typed
  have heffect := hheeded.eq_typed
  have hanswer := hheeded.answer
  rw [hrun] at heffect hanswer
  have hevents : events' = events := congrArg testerEvents heffect
  refine ⟨hanswer, fun shown => ?_, ?_⟩
  · exact (congrArg (fun x : App => { x with testerEvents := shown }) heffect).symm
  · have hshows : ((Program.perform (.act action)).run a).2.testerEvents =
        a.testerEvents ++ events' := hmirrored.shows
    rw [hheeded.shows, hhosted.testerEvents, hshows, hevents]

end Sends

section Built

variable {config : Config} {name : Option String} {properties : String} {extension : Extension}
  {built : App}

/-- A new application knows of no host. -/
theorem refines_of_build (hbuilt : build config name properties extension = .ok built) :
    Refines nobody built built := by
  obtain ⟨name, properties, rfl⟩ := eq_ofParts_of_build hbuilt
  refine ⟨?_, .nil, fun k i listener hhears => ?_, fun i hi => ?_⟩
  · simp [typed, ofParts, Worker.map, Task.map, Job.typed]
  · obtain ⟨c, hfound, -⟩ := hhears
    simp [ofParts] at hfound
  · cases hi

/-- A new application has no messages of hosts. -/
theorem young_of_build (hbuilt : build config name properties extension = .ok built) (i : Nat) :
    (built.boundaries.getD i {}).messages.Young ∧
      (built.boundaries.getD i {}).messages.next.toNat ≤ 0 + 1 := by
  obtain ⟨name, properties, rfl⟩ := eq_ofParts_of_build hbuilt
  exact ⟨HandleRegistry.young_empty, Nat.le_refl _⟩

/-- Beside an application that was built another one goes on in which a tester does what hosts do.
Whatever the one can become, the other one becomes the same with typed listeners, and shows what
hosts were told, in the same order. A send of a host for a null or a live callback does what the
send of a tester does and is answered with its status, and the listener that it leaves behind waits
until it is released. Every turn shows the same in both, but for the one listener that a task is
for: who has a callback is told what the typed one is shown. For a null callback nothing is invoked,
and a result that is delivered for it leaves no message behind. -/
theorem foreign_refines_typed (nobody : String)
    (hbuilt : build config name properties extension = .ok built) :
    (∀ a, Reached built a →
      (∃ turns b, alongside nobody turns built built = (a, b)) ∧
      ∀ e, ∃ turns b, alongside nobody turns built built = (a.ended e, b)) ∧
    ∀ turns a b, alongside nobody turns built built = (a, b) →
      b = a.typed nobody b.testerEvents ∧
      Renders nobody a.testerEvents b.testerEvents ∧
      (turns.length + 1 < UInt64.size → ∀ i, (a.boundaries.getD i {}).messages.Young) ∧
      (∀ (s : Sending) handle raw msg listener, a.host.messages.get? handle = some msg →
        msg.kind = s.kind → a.host.Listens raw listener →
        ∃ action, s.action? nobody listener msg = some action ∧
          (s.call handle.raw raw).instead? nobody a.host = some action ∧
          SentAlike nobody a (s.call handle.raw raw) action ∧
          (((Program.foreign (s.call handle.raw raw)).run a).1 = .status .ok →
            ∃ i, (a.turned (.host (s.call handle.raw raw))).boundary = some i ∧
              (a.turned (.host (s.call handle.raw raw))).Awaits i listener a.cells.size s)) ∧
      ∀ t : Turn, ∃ events more, t.Matches nobody a b events more := by
  have hnew : Refines nobody built built := refines_of_build hbuilt
  constructor
  · intro a ha
    have halongside (turns : List Turn) :
        ∃ b, alongside nobody turns built built = (turns.foldl turned built, b) :=
      ⟨_, Prod.ext (alongside_fst nobody turns built built) rfl⟩
    constructor
    · obtain ⟨turns, rfl⟩ := ha.exists_turns
      exact ⟨turns, halongside turns⟩
    · intro e
      obtain ⟨turns, hended⟩ := ha.exists_turns_ended e
      rw [hended]
      exact ⟨turns, halongside turns⟩
  · intro turns a b hrun
    have hrefines : Refines nobody a b := by
      have hcourse := hnew.course turns
      rwa [hrun] at hcourse
    refine ⟨hrefines.eq_typed, hrefines.renders, fun hturns i => ?_, ?_, hrefines.exists_matches⟩
    · have hroom : 0 + turns.length + 1 < UInt64.size := by rwa [Nat.zero_add]
      have hyoung := hnew.young_alongside (young_of_build hbuilt) hroom i
      rwa [hrun] at hyoung
    · intro s handle raw msg listener hfound hkind hlistener
      obtain ⟨action, haction⟩ :=
        Option.isSome_iff_exists.mp (@Sending.isSome_action? nobody s msg hkind listener)
      have hinstead : (s.call handle.raw raw).instead? nobody a.host = some action :=
        (instead?_call hfound hkind hlistener).trans haction
      exact ⟨action, haction, hinstead, hrefines.grounded.sentAlike hinstead,
        hrefines.grounded.awaits_foreign hfound hkind hlistener⟩

/-- A host sends a ping with a callback and another one without, and both are answered. -/
def hosting : List Turn :=
  [.task .engine, .host (.create (.cmd { name := "ping" })),
    .host (.callback { tag := "pong", panics := false }), .host (.sendCmd 1 1 false),
    .host (.create (.cmd { name := "ping" })), .host (.sendCmd 2 0 false),
    .task .engine, .task .engine, .task .tester, .task .tester, .task .tester]

/-- The host is told of one result, for which it finds a message; typed listeners are shown two. -/
theorem hosting_refines :
    ∃ a b, build {} (some "echo") "" .responder = .ok responding ∧
      alongside "nobody" hosting responding responding = (a, b) ∧
      a.testerEvents.length = 1 ∧ (a.boundaries.getD 0 {}).messages.size = 1 ∧
      b.testerEvents.length = 2 ∧
      b = a.typed "nobody" b.testerEvents ∧ Renders "nobody" a.testerEvents b.testerEvents := by
  have hbuilt : build {} (some "echo") "" .responder = .ok responding := rfl
  obtain ⟨-, hruns⟩ := foreign_refines_typed "nobody" hbuilt
  have hcounts : ((alongside "nobody" hosting responding responding).1.testerEvents.length,
      ((alongside "nobody" hosting responding responding).1.boundaries.getD 0 {}).messages.size,
      (alongside "nobody" hosting responding responding).2.testerEvents.length) = (1, 1, 2) := by
    decide +kernel
  obtain ⟨htold, hcounts⟩ := Prod.mk.inj hcounts
  obtain ⟨hfound, hshown⟩ := Prod.mk.inj hcounts
  obtain ⟨heq, hrenders, -⟩ := hruns hosting _ _ rfl
  exact ⟨_, _, hbuilt, rfl, htold, hfound, hshown, heq, hrenders⟩

end Built

end Switchboard.App
