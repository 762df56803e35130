import Switchboard.Proofs.Foreign.Mail
import Switchboard.Proofs.Foreign.Mimicry
/-!
# Deliveries to foreign listeners

A worker that runs a task for a foreign listener calls back into a host where it would otherwise
have called a handler or a completion. What the host is told is what the typed listener is shown:
the result of a command as a message under a new number, a fault as its status. Nothing is told to
nobody, and nothing stays behind for them.
-/
namespace Switchboard.App

variable {nobody : String} {a : App} {shown : List Event}

/-- The boundary and the callback that a handler stands for, if it is a foreign one. -/
def Handler.listener? : Handler → Option (Nat × Option (Handle × Callback))
  | foreign i listener => some (i, listener)
  | scripted .. | promise _ | silent => none

/-- The foreign listener that a job is for: the one who waits for the outcome of a command, or for a
message to be handed over. -/
def listenerOf (a : App) : Job → Option (Nat × Option (Handle × Callback))
  | .resume k _ _ =>
    match (a.cells.getD k { slot := .released }).slot with
    | .waiting handler => handler.listener?
    | .running | .released => none
  | .completion (.foreign i handle callback) => some (i, some (handle, callback))
  | _ => none

/-- The foreign listener that the oldest task of a worker is for. -/
def addressee (a : App) (side : Side) : Option (Nat × Option (Handle × Callback)) :=
  match (a.worker side).next.1 with
  | some (.job job) => a.listenerOf job
  | some .mark | none => none

/-- What is shown when something is done for a foreign listener or for none, and what typed
listeners show in its place. Without a foreign listener that is the same. -/
inductive Tells (nobody : String) (before after : Array Boundary) :
    Option (Nat × Option (Handle × Callback)) → List Event → List Event → Prop where
  | alike (events : List Event) (h : after = before) : Tells nobody before after none events events
  | result {i : Nat} (handle : Handle) (callback : Callback) {result : CmdResult} {new : Handle}
    (harrives : Arrives before after i new (.cmdResult result)) (call : Nat) :
    Tells nobody before after (some (i, some (handle, callback)))
      [.callback callback.tag .ok (some new)] [.outcome callback.tag call (.ok result)]
  | fault (i : Nat) (handle : Handle) (callback : Callback) (hmail : mail after = mail before)
    (fault : Fault) (call : Nat) :
    Tells nobody before after (some (i, some (handle, callback)))
      [.callback callback.tag (.ofFault fault) none] [.outcome callback.tag call (.error fault)]
  | completed (i : Nat) (handle : Handle) (callback : Callback) (hmail : mail after = mail before) :
    Tells nobody before after (some (i, some (handle, callback)))
      [.callback callback.tag .ok none] [.ack callback.tag]
  | unheard (i : Nat) (hleaves : LeavesNothing before after) (outcome : Outcome) (call : Nat) :
    Tells nobody before after (some (i, none)) [] [.outcome nobody call outcome]

/-- No task is lost, and every continuation keeps its handler until that is released. -/
structure Retains (a a' : App) : Prop where
  queue : ∀ side, (a.worker side).queue <+: (a'.worker side).queue
  cells : ∀ (k : Nat) (c : Continuation Handler), a.cells[k]? = some c →
    ∃ c', a'.cells[k]? = some c' ∧ (c'.slot = c.slot ∨ c'.slot = .released)

/-- Both end by a panic, or none does. -/
def EndsAlike (ended ended' : Except Panic Unit) : Prop := ended'.isOk = ended.isOk

theorem EndsAlike.refl (ended : Except Panic Unit) : EndsAlike ended ended := rfl

/-- What a program has made of an application for a foreign listener or for none, and its
counterpart of the same application with typed listeners. How they end is compared by a relation. -/
structure Told {α : Type} (alike : α → α → Prop) (nobody : String)
    (listener : Option (Nat × Option (Handle × Callback))) (a : App)
    (shown events more : List Event) (out out' : α × App) : Prop where
  ends : alike out.1 out'.1
  eq_typed : out'.2 = out.2.typed nobody (shown ++ more)
  shows : out.2.testerEvents = a.testerEvents ++ events
  tells : Tells nobody a.boundaries out.2.boundaries listener events more
  ages : Ages a.boundaries out.2.boundaries
  size : out.2.boundaries.size = a.boundaries.size
  boundary : out.2.boundary = a.boundary
  retains : Retains a out.2
  hears : ∀ k i listener, out.2.Hears k i listener → a.Hears k i listener

section Listeners

theorem Augments.retains {a' : App} (h : Augments a a') : Retains a a' where
  queue := h.queue
  cells k c hfound := ⟨c, h.cells k c hfound, Or.inl rfl⟩

theorem Retains.trans {b c : App} (h : Retains a b) (h' : Retains b c) : Retains a c where
  queue side := (h.queue side).trans (h'.queue side)
  cells k d hd := by
    obtain ⟨d', hd', hslot⟩ := h.cells k d hd
    obtain ⟨d'', hd'', hslot'⟩ := h'.cells k d' hd'
    exact ⟨d'', hd'', hslot'.elim (fun heq => heq ▸ hslot) Or.inr⟩

theorem Mirrored.told {α : Type} {alike : α → α → Prop} (halike : ∀ x, alike x x)
    {events : List Event} {out out' : α × App} (h : Mirrored nobody a shown events out out') :
    Told alike nobody none a shown events events out out' where
  ends := by
    rw [h.eq_typed]
    exact halike out.1
  eq_typed := by rw [h.eq_typed]
  shows := h.shows
  tells := .alike events h.boundaries
  ages := h.boundaries ▸ ages_refl _
  size := congrArg Array.size h.boundaries
  boundary := h.boundary
  retains := h.adds.retains
  hears := h.hears

/-- How a callback ends. -/
def Callback.ending (c : Callback) (text : String) : Except Panic Unit :=
  if c.panics then .error ⟨text⟩ else .ok ()

theorem endsAlike_ending (c : Callback) (text text' : String) :
    EndsAlike (c.ending text) (c.ending text') := by
  rw [EndsAlike, Callback.ending, Callback.ending]
  split
  · rfl
  · rfl

/-- What is done in place of a callback. -/
theorem run_followUp (callback : Callback) (b : App) :
    (Program.actAll .tester true none callback.followUp).run b =
      (callback.ending "scripted panic", b) := by
  rw [Callback.followUp, Callback.ending]
  split
  · rfl
  · rfl

/-- A handler in place of a callback shows the outcome under the tag of the callback. -/
theorem run_handling_callback (handle : Handle) (callback : Callback) (call : Nat)
    (outcome : Outcome) (b : App) :
    (handling (.inPlaceOf nobody (some (handle, callback))) call outcome).run b =
      (callback.ending "scripted panic",
        b.addEvent .tester (.outcome callback.tag call outcome)) := by
  have hemit : (Program.emit .tester (.outcome callback.tag call outcome)).run b =
    ((), b.addEvent .tester (.outcome callback.tag call outcome)) := rfl
  rw [Handler.inPlaceOf, handling, run_bind, hemit, run_bind, run_followUp, Callback.ending]
  cases callback.panics with
  | true => rfl
  | false => rfl

/-- A boundary that is changed twice. -/
theorem run_boundary_modify (i : Nat) (f : Boundary → Boundary) {b : Boundary}
    (hi : i < a.boundaries.size) :
    ((Program.boundary i).modify f).run { a with boundaries := a.boundaries.setIfInBounds i b } =
      ((), { a with boundaries := a.boundaries.setIfInBounds i (f b) }) := by
  change ((), { a with
    boundaries := (a.boundaries.setIfInBounds i b).setIfInBounds i
      (f ((a.boundaries.setIfInBounds i b).getD i {})) }) = _
  rw [getD_setIfInBounds, if_pos ⟨rfl, hi⟩, Array.setIfInBounds_setIfInBounds]

/-- Boundaries of an application that has changed in nothing else but what was shown. -/
theorem told_of_boundaries {listener : Option (Nat × Option (Handle × Callback))}
    {boundaries : Array Boundary} {events more : List Event} {ended ended' : Except Panic Unit}
    (hends : EndsAlike ended ended')
    (htells : Tells nobody a.boundaries boundaries listener events more)
    (hages : Ages a.boundaries boundaries) (hsize : boundaries.size = a.boundaries.size) :
    Told EndsAlike nobody listener a shown events more
      (ended, { a with boundaries := boundaries, testerEvents := a.testerEvents ++ events })
      (ended', a.typed nobody (shown ++ more)) :=
  have hadds : Augments a
      { a with boundaries := boundaries, testerEvents := a.testerEvents ++ events } :=
    augments_of_same (fun _ => rfl) rfl
  ⟨hends, rfl, rfl, htells, hages, hsize, rfl, hadds.retains, fun _ _ _ h => h⟩

/-- A callback is told, and may panic then. -/
theorem run_callBack (callback : Callback) (status : Status) (result : Option Handle) (b : App) :
    (Program.callBack callback status result).run b =
      (callback.ending (callback.tag ++ " panics"),
        b.addEvent .tester (.callback callback.tag status result)) := rfl

/-- A result is put on the boundary at first. -/
theorem run_presentOutcome_ok (i : Nat) (result : CmdResult) :
    (Program.presentOutcome i (.ok result)).run a =
      ((.ok, some ((a.boundaries.getD i {}).messages.insert (.cmdResult result)).1),
        { a with
          boundaries := a.boundaries.setIfInBounds i
            { a.boundaries.getD i {} with
              messages := ((a.boundaries.getD i {}).messages.insert (.cmdResult result)).2 } }) :=
  rfl

/-- A callback is called for a result at the end: its message is on the boundary by then, and the
last result has released the callback. -/
theorem run_deliverForeign_ok {i : Nat} (hi : i < a.boundaries.size) (handle : Handle)
    (callback : Callback) (result : CmdResult) :
    (Program.deliverForeign i (some (handle, callback)) (.ok result)).run a =
      (Program.callBack callback .ok
        (some ((a.boundaries.getD i {}).messages.insert (.cmdResult result)).1)).run
        { a with
          boundaries := a.boundaries.setIfInBounds i
            { messages := ((a.boundaries.getD i {}).messages.insert (.cmdResult result)).2
              callbacks :=
                if result.isFinal then (a.boundaries.getD i {}).callbacks.erase handle
                else (a.boundaries.getD i {}).callbacks } } := by
  rw [Program.deliverForeign, run_bind, run_presentOutcome_ok]
  dsimp only
  cases hfinal : result.isFinal with
  | true =>
    have hterminal : Outcome.isTerminal (.ok result) = true := hfinal
    rw [if_pos hterminal, run_bind, run_boundary_modify i _ hi, if_pos rfl]
  | false =>
    have hterminal : ¬Outcome.isTerminal (.ok result) = true := fun h =>
      Bool.false_ne_true (hfinal.symm.trans h)
    rw [if_neg hterminal, if_neg Bool.false_ne_true]

/-- A callback is called for a fault when it was released. -/
theorem run_deliverForeign_error (i : Nat) (handle : Handle) (callback : Callback) (fault : Fault) :
    (Program.deliverForeign i (some (handle, callback)) (.error fault)).run a =
      (Program.callBack callback (.ofFault fault) none).run
        { a with
          boundaries := a.boundaries.setIfInBounds i
            { a.boundaries.getD i {} with
              callbacks := (a.boundaries.getD i {}).callbacks.erase handle } } := rfl

/-- A result for nobody is put on the boundary and forgotten at once. -/
theorem run_deliverForeign_nobody {i : Nat} (hi : i < a.boundaries.size) (result : CmdResult) :
    (Program.deliverForeign i none (.ok result)).run a =
      (.ok (), { a with
        boundaries := a.boundaries.setIfInBounds i
          { a.boundaries.getD i {} with
            messages := ((a.boundaries.getD i {}).messages.insert (.cmdResult result)).2.erase
              ((a.boundaries.getD i {}).messages.insert (.cmdResult result)).1 } }) := by
  rw [Program.deliverForeign, run_bind, run_presentOutcome_ok]
  dsimp only
  rw [run_bind, run_boundary_modify i _ hi]
  rfl

/-- The host is told of a result under the number of its message. -/
theorem told_result {i : Nat} (hi : i < a.boundaries.size) (handle : Handle) (callback : Callback)
    (result : CmdResult) (call : Nat) :
    Told EndsAlike nobody (some (i, some (handle, callback))) a shown
      [.callback callback.tag .ok
        (some ((a.boundaries.getD i {}).messages.insert (.cmdResult result)).1)]
      [.outcome callback.tag call (.ok result)]
      ((Program.deliverForeign i (some (handle, callback)) (.ok result)).run a)
      ((handling (.inPlaceOf nobody (some (handle, callback))) call (.ok result)).run
        (a.typed nobody shown)) := by
  rw [run_deliverForeign_ok hi, run_callBack, run_handling_callback]
  refine told_of_boundaries (endsAlike_ending _ _ _)
    (.result handle callback (arrives_set hi rfl) call) (ages_set ?_) Array.size_setIfInBounds
  exact HandleRegistry.ages_insert _ _

/-- The host is told of a fault by its status. -/
theorem told_fault (i : Nat) (handle : Handle) (callback : Callback) (fault : Fault) (call : Nat) :
    Told EndsAlike nobody (some (i, some (handle, callback))) a shown
      [.callback callback.tag (.ofFault fault) none] [.outcome callback.tag call (.error fault)]
      ((Program.deliverForeign i (some (handle, callback)) (.error fault)).run a)
      ((handling (.inPlaceOf nobody (some (handle, callback))) call (.error fault)).run
        (a.typed nobody shown)) := by
  rw [run_deliverForeign_error, run_callBack, run_handling_callback]
  refine told_of_boundaries (endsAlike_ending _ _ _) (.fault i handle callback ?_ fault call)
    (ages_set (.refl _)) Array.size_setIfInBounds
  exact mail_set_of_messages rfl

/-- Nobody is told of an outcome, and the message of a result is forgotten at once. -/
theorem told_nobody {i : Nat} (hi : i < a.boundaries.size) (outcome : Outcome) (call : Nat) :
    Told EndsAlike nobody (some (i, none)) a shown [] [.outcome nobody call outcome]
      ((Program.deliverForeign i none outcome).run a)
      ((handling (.inPlaceOf nobody none) call outcome).run (a.typed nobody shown)) := by
  have hshown : (handling (.inPlaceOf nobody none) call outcome).run (a.typed nobody shown) =
      (.ok (), a.typed nobody (shown ++ [.outcome nobody call outcome])) := rfl
  rw [hshown]
  cases outcome with
  | error fault =>
    have hrun : (Program.deliverForeign i none (.error fault)).run a =
        (.ok (), { a with
          boundaries := a.boundaries, testerEvents := a.testerEvents ++ [] }) := by
      rw [List.append_nil]
      rfl
    rw [hrun]
    exact told_of_boundaries rfl (.unheard i ⟨fun _ _ _ hfound => hfound, fun _ => rfl⟩ _ call)
      (ages_refl _) rfl
  | ok result =>
    have hrun := run_deliverForeign_nobody hi result
    rw [← List.append_nil a.testerEvents] at hrun
    rw [hrun]
    refine told_of_boundaries rfl (.unheard i (leavesNothing_set rfl) _ call)
      (ages_set ?_) Array.size_setIfInBounds
    exact (HandleRegistry.ages_insert _ _).erase _

/-- The host is told that its message was handed over. -/
theorem told_completed (i : Nat) (handle : Handle) (callback : Callback) :
    Told EndsAlike nobody (some (i, some (handle, callback))) a shown
      [.callback callback.tag .ok none] [.ack callback.tag]
      ((Program.completeForeign i handle callback).run a)
      ((Program.runCompletion (.scripted callback.ack)).run (a.typed nobody shown)) := by
  have hshown : (Program.runCompletion (.scripted callback.ack)).run (a.typed nobody shown) =
      (callback.ending "scripted panic", a.typed nobody (shown ++ [.ack callback.tag])) :=
    run_followUp callback _
  rw [hshown]
  refine told_of_boundaries (endsAlike_ending _ _ _) (.completed i handle callback ?_)
    (ages_set (.refl _)) Array.size_setIfInBounds
  exact mail_set_of_messages rfl

/-- Whichever handler is told of an outcome. -/
theorem exists_told_handling {handler : Handler}
    (h : ∀ i listener, handler = .foreign i listener → i < a.boundaries.size) (call : Nat)
    (outcome : Outcome) :
    ∃ events more, Told EndsAlike nobody handler.listener? a shown events more
      ((handling handler call outcome).run a)
      ((handling (handler.typed nobody) call outcome).run (a.typed nobody shown)) := by
  have hown {handler : Handler} (hown : handler.typed nobody = handler) :
      ∃ events more, Told EndsAlike nobody none a shown events more
        ((handling handler call outcome).run a)
        ((handling (handler.typed nobody) call outcome).run (a.typed nobody shown)) := by
    obtain ⟨events, hmirrored⟩ := (mimics_handling hown call outcome).follows a shown
    rw [hown]
    exact ⟨events, events, hmirrored.told EndsAlike.refl⟩
  cases handler with
  | foreign i listener =>
    have hi := h i listener rfl
    rcases listener with _ | ⟨handle, callback⟩
    · exact ⟨_, _, told_nobody hi outcome call⟩
    · cases outcome with
      | ok result => exact ⟨_, _, told_result hi handle callback result call⟩
      | error fault => exact ⟨_, _, told_fault i handle callback fault call⟩
  | scripted side tag followUp panicOn current => exact hown rfl
  | promise i => exact hown rfl
  | silent => exact hown rfl

end Listeners

section Cells

theorem typed_setCell (a : App) (k : Nat) (c : Continuation Handler) :
    (a.setCell k c).typed nobody shown =
      (a.typed nobody shown).setCell k (c.map (·.typed nobody)) := by
  have hcells : (a.cells.setIfInBounds k c).map (·.map (·.typed nobody)) =
      (a.typed nobody shown).cells.setIfInBounds k (c.map (·.typed nobody)) :=
    Array.map_setIfInBounds
  rw [setCell, setCell, ← hcells]
  rfl

theorem hears_setCell {c : Continuation Handler} {k j i : Nat}
    {listener : Option (Handle × Callback)} (h : (a.setCell k c).Hears j i listener) :
    k = j ∧ c.slot = .waiting (.foreign i listener) ∨ a.Hears j i listener := by
  obtain ⟨d, hfound, hslot⟩ := h
  change (a.cells.setIfInBounds k c)[j]? = some d at hfound
  rw [Array.getElem?_setIfInBounds] at hfound
  split at hfound
  · split at hfound
    · cases hfound
      exact Or.inl ⟨‹k = j›, hslot⟩
    · cases hfound
  · exact Or.inr ⟨d, hfound, hslot⟩

theorem augments_observing (a : App) (side : Side) (outcome : Outcome) :
    Augments a (a.observing side outcome) := by
  rw [observing]
  split
  · exact augments_of_same (fun _ => rfl) rfl
  · exact .refl a

/-- A continuation is visited by a delivery that finds no handler. -/
theorem retains_setCell {k : Nat} {c : Continuation Handler}
    (h : ∀ d, a.cells[k]? = some d → c.slot = d.slot) : Retains a (a.setCell k c) where
  queue _ := List.prefix_refl _
  cells j d hd := by
    by_cases heq : k = j
    · subst heq
      exact ⟨c, getElem?_setCell_self hd c, Or.inl (h d hd)⟩
    · exact ⟨d, by rwa [getElem?_setCell_of_ne heq], Or.inl rfl⟩

/-- A handler that was taken out is put back. -/
theorem Retains.putBack {b : App} {k : Nat} {c c' : Continuation Handler} {handler : Handler}
    (h : Retains (a.setCell k c) b) (hslot : ∀ d, a.cells[k]? = some d → d.slot = .waiting handler)
    (terminal : Bool) : Retains a (b.setCell k (c'.putBack terminal handler)) where
  queue := h.queue
  cells j d hd := by
    by_cases heq : k = j
    · subst heq
      obtain ⟨e, he, -⟩ := h.cells k c (getElem?_setCell_self hd c)
      refine ⟨_, getElem?_setCell_self he _, ?_⟩
      rw [hslot d hd]
      cases terminal with
      | true => exact Or.inr rfl
      | false => exact Or.inl rfl
    · rw [getElem?_setCell_of_ne heq]
      exact h.cells j d (by rwa [getElem?_setCell_of_ne heq])

theorem typed_observing (a : App) (side : Side) (outcome : Outcome) :
    (a.typed nobody shown).observing side outcome =
      (a.observing side outcome).typed nobody shown := by
  rw [observing, observing]
  split
  · rfl
  · rfl

end Cells

section Tasks

/-- The second application has the boundaries and the events of the first. -/
structure Aside (a a' : App) : Prop where
  boundaries : a'.boundaries = a.boundaries
  boundary : a'.boundary = a.boundary
  testerEvents : a'.testerEvents = a.testerEvents

theorem aside_setWorker (a : App) (side : Side) (w : Worker Job) :
    Aside a (a.setWorker side w) := by
  cases side
  · exact ⟨rfl, rfl, rfl⟩
  · exact ⟨rfl, rfl, rfl⟩

theorem aside_observing (a : App) (side : Side) (outcome : Outcome) :
    Aside a (a.observing side outcome) := by
  rw [observing]
  split
  · exact ⟨rfl, rfl, rfl⟩
  · exact ⟨rfl, rfl, rfl⟩

/-- What is done aside before and afterwards does not change what is told. -/
theorem Told.aside {α β : Type} {alike : α → α → Prop} {alike' : β → β → Prop}
    {listener : Option (Nat × Option (Handle × Callback))} {b c c' : App}
    {events more : List Event} {out out' : α × App} {answer answer' : β}
    (h : Told alike nobody listener b shown events more out out') (hanswer : alike' answer answer')
    (hbefore : Aside a b) (hafter : Aside out.2 c) (hc' : c' = c.typed nobody (shown ++ more))
    (hretains : Retains a c)
    (hears : ∀ k i listener, c.Hears k i listener → a.Hears k i listener) :
    Told alike' nobody listener a shown events more (answer, c) (answer', c') where
  ends := hanswer
  eq_typed := hc'
  shows := by rw [hafter.testerEvents, h.shows, hbefore.testerEvents]
  tells := by
    rw [hafter.boundaries, ← hbefore.boundaries]
    exact h.tells
  ages := by
    rw [hafter.boundaries, ← hbefore.boundaries]
    exact h.ages
  size := by rw [hafter.boundaries, h.size, hbefore.boundaries]
  boundary := by rw [hafter.boundary, h.boundary, hbefore.boundary]
  retains := hretains
  hears := hears

/-- Foreign listeners belong to boundaries that exist. -/
structure Grounded (a : App) : Prop where
  hears : ∀ k i listener, a.Hears k i listener → i < a.boundaries.size
  boundary : ∀ i, a.boundary = some i → i < a.boundaries.size

theorem run_callOut (k n : Nat) (handler : Handler) (outcome : Outcome) (terminal : Bool)
    (b : App) :
    let out := (handling handler n outcome).run (b.observing handler.side outcome)
    (Continuation.callOut (Program.cell k) Program.callHandler outcome terminal handler n).run b =
      (out.1, out.2.setCell k
        ((out.2.cells.getD k { slot := .released }).putBack terminal handler)) := by
  intro out
  rw [Continuation.callOut, run_bind, run_callHandler]
  rfl

/-- A delivery is told to the handler that it finds. -/
theorem Grounded.exists_told_resume (ha : a.Grounded) (k : Nat) (outcome : Outcome)
    (terminal : Bool) :
    ∃ events more, Told EndsAlike nobody (a.listenerOf (.resume k outcome terminal)) a shown events
      more
      ((Continuation.resume (Program.cell k) Program.callHandler outcome terminal).run a)
      ((Continuation.resume (Program.cell k) Program.callHandler outcome terminal).run
        (a.typed nobody shown)) := by
  obtain ⟨c, hc⟩ : ∃ c, a.cells.getD k { slot := .released } = c := ⟨_, rfl⟩
  have hfound (d : Continuation Handler) (hd : a.cells[k]? = some d) : c = d := by
    rw [← hc, Array.getD_eq_getD_getElem?, hd, Option.getD_some]
  set b := a.setCell k (c.takeOut outcome terminal).2
  have hgone (j i : Nat) (listener : Option (Handle × Callback)) (h : b.Hears j i listener) :
      a.Hears j i listener :=
    (hears_setCell h).resolve_left fun hhere => slot_takeOut c outcome terminal _ hhere.2
  rw [listenerOf, Continuation.resume, run_bind, run_bind, run_cell_step, run_cell_step,
    getD_cells_typed, hc, Continuation.takeOut_map, ← typed_setCell]
  rcases takeOut_cases c outcome terminal with ⟨handler, n, hslot, htaken, -⟩ | ⟨hnone, -⟩
  · rw [htaken, hslot]
    dsimp only [Option.map_some]
    rw [run_callOut, run_callOut, side_typed, typed_observing]
    have hheard (i : Nat) (listener : Option (Handle × Callback))
        (heq : handler = .foreign i listener) : a.Hears k i listener := by
      subst hc
      exact ⟨_, getElem?_of_slot hslot, heq ▸ hslot⟩
    have hbeside := b.aside_observing handler.side outcome
    obtain ⟨events, more, htold⟩ : ∃ events more, Told EndsAlike nobody handler.listener?
        (b.observing handler.side outcome) shown events more
        ((handling handler n outcome).run (b.observing handler.side outcome))
        ((handling (handler.typed nobody) n outcome).run
          ((b.observing handler.side outcome).typed nobody shown)) := by
      refine exists_told_handling (fun i listener heq => ?_) n outcome
      rw [hbeside.boundaries]
      exact ha.hears k i listener (hheard i listener heq)
    refine ⟨events, more, htold.aside htold.ends
      ⟨hbeside.boundaries, hbeside.boundary, hbeside.testerEvents⟩ ⟨rfl, rfl, rfl⟩ ?_ ?_
      fun j i listener h => ?_⟩
    · rw [htold.eq_typed, getD_cells_typed, Continuation.putBack_map, ← typed_setCell]
    · refine ((b.augments_observing handler.side outcome).retains.trans
        htold.retains).putBack (fun d hd => ?_) terminal
      rw [← hfound d hd, hslot]
    · rcases hears_setCell h with ⟨rfl, hback⟩ | hwaits
      · exact hheard i listener (slot_putBack hback).symm
      · obtain ⟨d, hfound, hslot⟩ := htold.hears j i listener hwaits
        rw [(b.same_observing handler.side outcome).cells] at hfound
        exact hgone j i listener ⟨d, hfound, hslot⟩
  · rw [hnone]
    have hlistener : (match c.slot with
        | .waiting handler => handler.listener?
        | .running | .released => none) = none := by
      rw [Continuation.takeOut] at hnone
      cases hslot : c.slot with
      | waiting handler =>
        rw [hslot] at hnone
        cases hnone
      | running => rfl
      | released => rfl
    rw [hlistener]
    have htold : Told EndsAlike nobody none b shown [] [] (.ok (), b)
        (.ok (), b.typed nobody shown) := (mirrored_pure _ b shown).told EndsAlike.refl
    have hshown : b.typed nobody shown = b.typed nobody (shown ++ []) := by
      rw [List.append_nil]
    have hslot (d : Continuation Handler) (hd : a.cells[k]? = some d) :
        (c.takeOut outcome terminal).2.slot = d.slot := by
      rw [← hfound d hd]
      exact slot_takeOut_of_none hnone
    exact ⟨[], [], htold.aside rfl ⟨rfl, rfl, rfl⟩ ⟨rfl, rfl, rfl⟩ hshown (retains_setCell hslot)
      hgone⟩

/-- Whatever a job is, typed listeners are shown what foreign ones are told. -/
theorem Grounded.exists_told_runJob (ha : a.Grounded) (side : Side) (job : Job) :
    ∃ events more, Told EndsAlike nobody (a.listenerOf job) a shown events more
      ((Program.runJob side job).run a)
      ((Program.runJob side job.typed).run (a.typed nobody shown)) := by
  have hown {job : Job} (hown : job.typed = job) (hother : job.isDelivery = false) :
      ∃ events more, Told EndsAlike nobody none a shown events more
        ((Program.runJob side job).run a)
        ((Program.runJob side job.typed).run (a.typed nobody shown)) := by
    obtain ⟨events, hmirrored⟩ := (mimics_runJob side hown hother).follows a shown
    rw [hown]
    exact ⟨events, events, hmirrored.told EndsAlike.refl⟩
  cases job with
  | resume k outcome terminal => exact ha.exists_told_resume k outcome terminal
  | completion completion =>
    cases completion with
    | foreign i handle callback => exact ⟨_, _, told_completed i handle callback⟩
    | scripted ack => exact hown rfl rfl
    | promise i => exact hown rfl rfl
  | arrival msg => exact hown rfl rfl
  | initExtension properties => exact hown rfl rfl
  | startExtension => exact hown rfl rfl
  | phase callback => exact hown rfl rfl

theorem hears_setWorker {side : Side} {w : Worker Job} {k i : Nat}
    {listener : Option (Handle × Callback)} :
    (a.setWorker side w).Hears k i listener ↔ a.Hears k i listener := by
  cases side
  · exact Iff.rfl
  · exact Iff.rfl

theorem listenerOf_setWorker (side : Side) (w : Worker Job) (job : Job) :
    (a.setWorker side w).listenerOf job = a.listenerOf job := by
  cases side
  · rfl
  · rfl

theorem Grounded.setWorker (ha : a.Grounded) (side : Side) (w : Worker Job) :
    (a.setWorker side w).Grounded := by
  obtain ⟨hboundaries, hboundary, -⟩ := aside_setWorker a side w
  constructor
  · intro k i listener h
    rw [hboundaries]
    exact ha.hears k i listener (hears_setWorker.mp h)
  · intro i h
    rw [hboundaries]
    exact ha.boundary i (hboundary ▸ h)

/-- A task that a worker runs is told to whom it is for. -/
theorem Grounded.exists_told_advance (ha : a.Grounded) (side : Side) :
    ∃ events more, Told Eq nobody (a.addressee side) (a.popped side) shown events more
      ((Program.advance side).run a) ((Program.advance side).run (a.typed nobody shown)) := by
  have hnext : ((Program.worker side).step Worker.next).run a =
      ((a.worker side).next.1, a.popped side) := rfl
  have hnext' : ((Program.worker side).step Worker.next).run (a.typed nobody shown) =
      ((a.worker side).next.1.map (Task.map Job.typed), (a.popped side).typed nobody shown) := by
    change (((a.typed nobody shown).worker side).next.1,
      (a.typed nobody shown).setWorker side ((a.typed nobody shown).worker side).next.2) = _
    rw [worker_typed, Worker.next_map, popped, typed_setWorker]
  have hfollows {p : Program Bool} (hp : Follows nobody p p) :
      ∃ events more, Told Eq nobody none (a.popped side) shown events more (p.run (a.popped side))
        (p.run ((a.popped side).typed nobody shown)) := by
    obtain ⟨events, hmirrored⟩ := hp (a.popped side) shown
    exact ⟨events, events, hmirrored.told fun _ => rfl⟩
  rw [Program.advance, run_bind, run_bind, hnext, hnext', addressee]
  rcases (a.worker side).next.1 with _ | job | _
  · exact hfollows (follows_pure false)
  · have hcount {ended : Except Panic Unit} (b : App) :
        ((Program.worker side).modify (·.count ended)).run b =
          ((), b.setWorker side ((b.worker side).count ended)) := rfl
    have hlistener : (a.popped side).listenerOf job = a.listenerOf job :=
      listenerOf_setWorker side _ job
    obtain ⟨events, more, htold⟩ : ∃ events more, Told EndsAlike nobody
        ((a.popped side).listenerOf job) (a.popped side) shown events more
        ((Program.runJob side job).run (a.popped side))
        ((Program.runJob side job.typed).run ((a.popped side).typed nobody shown)) :=
      (ha.setWorker side _).exists_told_runJob side job
    rw [hlistener] at htold
    dsimp only [Option.map_some, Task.map]
    rw [run_bind, run_bind, run_bind, run_bind, hcount, hcount]
    have hqueue {ended : Except Panic Unit} {w : Worker Job} :
        w.queue <+: (w.count ended).queue :=
      ⟨[], by rw [List.append_nil, Worker.queue_count]⟩
    refine ⟨events, more, htold.aside rfl ⟨rfl, rfl, rfl⟩ (aside_setWorker _ side _) ?_
      (htold.retains.trans (augments_setWorker hqueue).retains)
      fun k i listener h => htold.hears k i listener (hears_setWorker.mp h)⟩
    have hcounted := Worker.count_map Job.typed htold.ends
      (((Program.runJob side job).run (a.popped side)).2.worker side)
    rw [typed_setWorker, htold.eq_typed, worker_typed, hcounted]
  · have hcount : Follows nobody ((Program.worker side).modify (·.count (.ok ())))
        ((Program.worker side).modify (·.count (.ok ()))) :=
      follows_worker_step side (fun w => congrArg ((), ·) (w.count_map Job.typed rfl)) fun w =>
        List.prefix_refl _
    exact hfollows (hcount.bind fun _ => follows_pure true)

end Tasks

end Switchboard.App
