import Switchboard.Proofs.App.Workers
/-!
# Programs that mimic each other

A program that mimics another one does to an application with typed listeners what the other one
does to the same application with foreign ones: it answers the same, shows the same, and leaves the
same behind. Foreign listeners come and go in no other way than by what their hosts do.
-/
namespace Switchboard.App

variable {nobody : String} {a : App} {shown : List Event} {α β : Type}

/-- Everything that was there still is: new tasks are behind the others in their queues, and new
continuations have new numbers. -/
structure Augments (a a' : App) : Prop where
  queue : ∀ side, (a.worker side).queue <+: (a'.worker side).queue
  cells : ∀ (k : Nat) (c : Continuation Handler), a.cells[k]? = some c → a'.cells[k]? = some c

/-- What a program has made of an application, and another one of the same application with typed
listeners: both answer and show the same, no boundary has changed, and no other foreign listeners
than before wait for outcomes. -/
structure Mirrored (nobody : String) (a : App) (shown events : List Event) (out out' : α × App) :
    Prop where
  eq_typed : out' = (out.1, out.2.typed nobody (shown ++ events))
  shows : out.2.testerEvents = a.testerEvents ++ events
  boundaries : out.2.boundaries = a.boundaries
  boundary : out.2.boundary = a.boundary
  adds : Augments a out.2
  hears : ∀ k i listener, out.2.Hears k i listener → a.Hears k i listener

/-- Whatever has happened before, the second program does to typed listeners what the first does to
foreign ones. -/
def Follows (nobody : String) (p p' : Program α) : Prop :=
  ∀ a shown, ∃ events, Mirrored nobody a shown events (p.run a) (p'.run (a.typed nobody shown))

section Composition

theorem Augments.refl (a : App) : Augments a a := ⟨fun _ => List.prefix_refl _, fun _ _ h => h⟩

theorem Augments.trans {b c : App} (h : Augments a b) (h' : Augments b c) : Augments a c where
  queue side := (h.queue side).trans (h'.queue side)
  cells k d hd := h'.cells k d (h.cells k d hd)

/-- A change of anything but workers and continuations. -/
theorem augments_of_same {a' : App} (hworker : ∀ side, a'.worker side = a.worker side)
    (hcells : a'.cells = a.cells) : Augments a a' where
  queue side := hworker side ▸ List.prefix_refl _
  cells k c hfound := by rw [hcells, hfound]

/-- Whoever waits for the outcome of a command goes on to wait. -/
theorem Augments.hears {a' : App} (h : Augments a a') {k i : Nat}
    {listener : Option (Handle × Callback)} (hhears : a.Hears k i listener) :
    a'.Hears k i listener := by
  obtain ⟨c, hfound, hslot⟩ := hhears
  exact ⟨c, h.cells k c hfound, hslot⟩

theorem mirrored_pure (x : α) (a : App) (shown : List Event) :
    Mirrored nobody a shown [] ((pure x : Program α).run a)
      ((pure x : Program α).run (a.typed nobody shown)) where
  eq_typed := by
    rw [List.append_nil]
    rfl
  shows := (List.append_nil _).symm
  boundaries := rfl
  boundary := rfl
  adds := .refl a
  hears _ _ _ h := h

theorem follows_pure (x : α) : Follows nobody (pure x) (pure x) := fun a shown =>
  ⟨[], mirrored_pure x a shown⟩

theorem Follows.bind {p p' : Program α} {f f' : α → Program β} (hp : Follows nobody p p')
    (hf : ∀ x, Follows nobody (f x) (f' x)) : Follows nobody (p >>= f) (p' >>= f') := by
  intro a shown
  obtain ⟨events, hout, hevents, hboundaries, hboundary, hextends, hhears⟩ := hp a shown
  obtain ⟨more, hout', hevents', hboundaries', hboundary', hextends', hhears'⟩ :=
    hf (p.run a).1 (p.run a).2 (shown ++ events)
  refine ⟨events ++ more, ?_, ?_, hboundaries'.trans hboundaries, hboundary'.trans hboundary,
    hextends.trans hextends', fun k i listener h => hhears k i listener (hhears' k i listener h)⟩
  · rw [run_bind, hout, ← List.append_assoc]
    exact hout'
  · rw [run_bind, hevents', hevents, List.append_assoc]

theorem composes_follows :
    Composes fun (α : Type) (p : Program α) => Follows nobody p p where
  pure := follows_pure
  bind := Follows.bind

/-- A program that looks at the application, but not at its listeners. -/
theorem follows_consult {f f' : App → Program α} (hf : ∀ a, Follows nobody (f a) (f' a))
    (hblind : ∀ a shown, f' (a.typed nobody shown) = f' a) :
    Follows nobody (get >>= f) (get >>= f') := by
  intro a shown
  have hrun : (get >>= f').run (a.typed nobody shown) = (f' a).run (a.typed nobody shown) := by
    rw [← hblind a shown]
    rfl
  obtain ⟨events, hout⟩ := hf a a shown
  exact ⟨events, hrun ▸ hout⟩

/-- A step that nobody hears of, and that queues nothing. -/
theorem follows_modifyGet {f : App → α × App} (hunheard : ∀ a, (f a).2 = a.unheard (f a).2)
    (htyped : ∀ nobody a shown, f (a.typed nobody shown) = ((f a).1, (f a).2.typed nobody shown))
    (hworker : ∀ a side, (f a).2.worker side = a.worker side) :
    Follows nobody (modifyGet f) (modifyGet f) := by
  intro a shown
  have hevents : (f a).2.testerEvents = a.testerEvents := by rw [hunheard a, unheard]
  have hcells : (f a).2.cells = a.cells := by rw [hunheard a, unheard]
  refine ⟨[], ?_, ?_, ?_, ?_, augments_of_same (hworker a) hcells, ?_⟩
  · rw [List.append_nil]
    exact htyped nobody a shown
  · rw [List.append_nil]
    exact hevents
  · change (f a).2.boundaries = a.boundaries
    rw [hunheard a, unheard]
  · change (f a).2.boundary = a.boundary
    rw [hunheard a, unheard]
  · rintro k i listener ⟨c, hfound, hslot⟩
    exact ⟨c, hcells ▸ hfound, hslot⟩

theorem follows_emit (side : Side) (event : Event) :
    Follows nobody (Program.emit side event) (Program.emit side event) := by
  intro a shown
  have hworker (other : Side) : (a.addEvent side event).worker other = a.worker other := by
    cases side <;> cases other <;> rfl
  cases side with
  | tester =>
    exact ⟨[event], rfl, rfl, rfl, rfl, augments_of_same hworker rfl, fun _ _ _ h => h⟩
  | engine =>
    refine ⟨[], ?_, (List.append_nil _).symm, rfl, rfl, augments_of_same hworker rfl,
      fun _ _ _ h => h⟩
    rw [List.append_nil]
    rfl

end Composition

section Parts

theorem follows_router_step (f : Router Nat Side Side → α × Router Nat Side Side) :
    Follows nobody (Program.router.step f) (Program.router.step f) :=
  follows_modifyGet (fun _ => rfl) (fun _ _ _ => rfl) fun _ _ => rfl

theorem follows_lifecycle_step (f : Lifecycle → α × Lifecycle) :
    Follows nobody (Program.lifecycle.step f) (Program.lifecycle.step f) :=
  follows_modifyGet (fun _ => rfl) (fun _ _ _ => rfl) fun _ _ => rfl

theorem follows_modify {f : App → App} (hunheard : ∀ a, f a = a.unheard (f a))
    (htyped : ∀ nobody a shown, f (a.typed nobody shown) = (f a).typed nobody shown)
    (hworker : ∀ a side, (f a).worker side = a.worker side) :
    Follows nobody (modify f : Program PUnit) (modify f) :=
  follows_modifyGet hunheard (fun nobody a shown => by rw [htyped]) hworker

theorem follows_count (f : Counters → Counters) :
    Follows nobody (Program.count f) (Program.count f) :=
  follows_modify (fun _ => rfl) (fun _ _ _ => rfl) fun _ _ => rfl

theorem follows_during {p : Program α} (hp : Follows nobody p p) :
    Follows nobody (PermitPool.during Program.pool p) (PermitPool.during Program.pool p) := by
  have hpool (f : PermitPool → PermitPool) :
      Follows nobody (Program.pool.modify f) (Program.pool.modify f) :=
    follows_modifyGet (fun _ => rfl) (fun _ _ _ => rfl) fun _ _ => rfl
  exact (hpool _).bind fun _ => hp.bind fun _ => (hpool _).bind fun _ => follows_pure _

/-- A worker goes on, and no task in its queue is lost. -/
theorem augments_setWorker {side : Side} {w : Worker Job} (h : (a.worker side).queue <+: w.queue) :
    Augments a (a.setWorker side w) where
  queue other := by
    rw [worker_setWorker]
    split
    · next heq => exact heq ▸ h
    · exact List.prefix_refl _
  cells := by
    cases side
    · exact fun _ _ h => h
    · exact fun _ _ h => h

/-- What is done to a worker has a typed counterpart. -/
theorem follows_worker_step (side : Side) {f f' : Worker Job → α × Worker Job}
    (hf : ∀ w, f' (w.map Job.typed) = ((f w).1, (f w).2.map Job.typed))
    (hqueue : ∀ w, w.queue <+: (f w).2.queue) :
    Follows nobody ((Program.worker side).step f) ((Program.worker side).step f') := by
  intro a shown
  have hrun : ((Program.worker side).step f').run (a.typed nobody shown) =
      (((Program.worker side).step f).run a |>.1,
        ((Program.worker side).step f).run a |>.2.typed nobody shown) := by
    change ((f' ((a.typed nobody shown).worker side)).1,
      (a.typed nobody shown).setWorker side (f' ((a.typed nobody shown).worker side)).2) =
      ((f (a.worker side)).1, (a.setWorker side (f (a.worker side)).2).typed nobody shown)
    rw [worker_typed, hf, typed_setWorker]
  have hadds : Augments a (a.setWorker side (f (a.worker side)).2) := augments_setWorker (hqueue _)
  cases side with
  | tester =>
    exact ⟨[], by rwa [List.append_nil], (List.append_nil _).symm, rfl, rfl, hadds,
      fun _ _ _ h => h⟩
  | engine =>
    exact ⟨[], by rwa [List.append_nil], (List.append_nil _).symm, rfl, rfl, hadds,
      fun _ _ _ h => h⟩

/-- A task that is accepted is the last one of the queue. -/
theorem prefix_accept {J : Type} (task : Task J) (w : Worker J) :
    w.queue <+: (w.accept task).2.queue := by
  rw [Worker.accept]
  split
  · exact List.prefix_append _ _
  · exact List.prefix_refl _

theorem follows_accept (side : Side) (task : Task Job) :
    Follows nobody ((Program.worker side).step (·.accept task))
      ((Program.worker side).step (·.accept (task.map Job.typed))) :=
  follows_worker_step side (fun w => w.accept_map Job.typed task) (prefix_accept task)

/-- A typed handler is kept where a foreign one would be. -/
theorem run_newCell_typed (nobody : String) (a : App) (shown : List Event) (handler : Handler) :
    (Program.newCell (handler.typed nobody)).run (a.typed nobody shown) =
      (((Program.newCell handler).run a).1,
        ((Program.newCell handler).run a).2.typed nobody shown) := by
  have hcells : (a.typed nobody shown).cells.push (.ofHandler (handler.typed nobody)) =
      (a.cells.push (.ofHandler handler)).map (·.map (·.typed nobody)) := by
    rw [Array.map_push]
    rfl
  change ((a.typed nobody shown).cells.size,
    { a.typed nobody shown with
      cells := (a.typed nobody shown).cells.push (.ofHandler (handler.typed nobody)) }) =
    (a.cells.size, ({ a with cells := a.cells.push (.ofHandler handler) } : App).typed nobody shown)
  rw [hcells]
  simp [typed]

theorem augments_newCell (a : App) (handler : Handler) :
    Augments a ((Program.newCell handler).run a).2 where
  queue _ := List.prefix_refl _
  cells k c hfound := by
    change (a.cells.push (.ofHandler handler))[k]? = some c
    rw [Array.getElem?_push, if_neg (Nat.ne_of_lt (lt_size_of_getElem? hfound))]
    exact hfound

/-- A handler of the program's own waits for the outcome of a new command. -/
theorem follows_newCell {handler : Handler} (h : handler.typed nobody = handler) :
    Follows nobody (Program.newCell handler) (Program.newCell handler) := by
  intro a shown
  refine ⟨[], ?_, (List.append_nil _).symm, rfl, rfl, augments_newCell a handler, ?_⟩
  · have hrun := run_newCell_typed nobody a shown handler
    rw [h] at hrun
    rw [hrun, List.append_nil]
  · rintro k i listener ⟨c, hfound, hslot⟩
    change (a.cells.push (.ofHandler handler))[k]? = some c at hfound
    rw [Array.getElem?_push] at hfound
    split at hfound
    · cases hfound
      exact absurd (HandlerSlot.waiting.inj hslot) (ne_foreign_of_typed nobody h i listener)
    · exact ⟨c, hfound, hslot⟩

end Parts

section Operations

/-- To put back what is there changes nothing. -/
theorem setIfInBounds_getD {γ : Type} (xs : Array γ) (k : Nat) (d : γ) :
    xs.setIfInBounds k (xs.getD k d) = xs := by
  apply Array.ext
  · exact Array.size_setIfInBounds
  · intro i hi hi'
    rw [Array.getElem_setIfInBounds]
    split
    · subst k
      simp [hi']
    · rfl

theorem cell_get_bind (k : Nat) (f : Continuation Handler → Program α) :
    (Program.cell k).get >>= f =
      get >>= fun (a : App) => f (a.cells.getD k { slot := .released }) := by
  funext a
  change (f (a.cells.getD k { slot := .released })).run
    { a with cells := a.cells.setIfInBounds k (a.cells.getD k { slot := .released }) } = _
  rw [setIfInBounds_getD]
  rfl

/-- A delivery that is refused is lost. A promise is kept by nobody then; that does not depend on
who else listens. -/
theorem follows_submit (d : Delivery Nat Side) :
    Follows nobody (Program.submit d) (Program.submit d) := by
  have haccept : Follows nobody
      ((Program.worker d.executor).step
        (·.execute (.resume d.continuation d.outcome d.terminal)))
      ((Program.worker d.executor).step
        (·.execute (.resume d.continuation d.outcome d.terminal))) := follows_accept _ (.job _)
  apply haccept.bind
  intro answer
  cases answer with
  | ok _ => exact follows_pure _
  | error e =>
    dsimp only
    rw [cell_get_bind]
    refine follows_consult (fun a => ?_) fun a shown => ?_
    · rcases (a.cells.getD d.continuation { slot := .released }).slot with handler | _ | _
      · cases handler with
        | promise i => exact follows_modify (fun _ => rfl) (fun _ _ _ => rfl) fun _ _ => rfl
        | scripted side tag followUp panicOn current => exact follows_pure _
        | foreign i listener => exact follows_pure _
        | silent => exact follows_pure _
      · exact follows_pure _
      · exact follows_pure _
    · rw [getD_cells_typed]
      obtain ⟨slot, finished, history⟩ := a.cells.getD d.continuation { slot := .released }
      rcases slot with handler | _ | _
      · cases handler with
        | foreign i listener =>
          rcases listener with _ | ⟨handle, callback⟩
          · rfl
          · rfl
        | promise i => rfl
        | scripted side tag followUp panicOn current => rfl
        | silent => rfl
      · rfl
      · rfl

theorem follows_onTable
    (op : PendingTable Nat Side → α × List (Delivery Nat Side) × PendingTable Nat Side) :
    Follows nobody (Program.fabric.onTable op) (Program.fabric.onTable op) :=
  (follows_router_step _).bind fun (_, deliveries) =>
    (composes_follows.forM follows_submit deliveries).bind fun _ => follows_pure _

theorem follows_forward (side : Side) (msg : Message) :
    Follows nobody (Program.forward side msg) (Program.forward side msg) := by
  unfold Program.forward
  split
  · exact follows_pure _
  · exact follows_accept side (.job (.arrival msg))

theorem fits_follows :
    Composes.Fits (fun α (p : Program α) => Follows nobody p p) Program.fabric where
  get := follows_router_step _
  forward := follows_forward
  complete id result := follows_onTable (·.complete id result)
  fail id fault := follows_onTable (·.fail id fault)

theorem follows_sendCmdFrom (side : Side) (continuation : Nat) (cmd : Cmd) (streaming : Bool) :
    Follows nobody (Program.sendCmdFrom side continuation cmd streaming)
      (Program.sendCmdFrom side continuation cmd streaming) := by
  have hsend (p : Outlet Side) : Follows nobody
      (p.sendCmd Program.fabric cmd continuation streaming)
      (p.sendCmd Program.fabric cmd continuation streaming) :=
    composes_follows.sendCmd fits_follows p cmd (follows_router_step _)
  refine follows_consult (fun a => ?_) fun _ _ => rfl
  cases side with
  | engine => exact hsend _
  | tester =>
    apply (follows_during (hsend _)).bind
    intro answer
    cases answer with
    | ok id => exact (follows_count _).bind fun _ => follows_pure _
    | error e => exact follows_pure _

/-- Sends a command for a continuation that was made for it. -/
def sendFor (side : Side) (cmd : Cmd) (streaming : Bool) (continuation : Nat) :
    Program (Except Fault RequestId) := do
  let answer ← Program.sendCmdFrom side continuation cmd streaming
  if let .ok _ := answer then
    modify fun a => { a with sent := a.sent ++ [continuation] }
  return answer

theorem sendCmd_eq (handler : Handler) (cmd : Cmd) (streaming : Bool) :
    Program.sendCmd handler cmd streaming =
      Program.newCell handler >>= sendFor handler.side cmd streaming := rfl

theorem follows_sendFor (side : Side) (cmd : Cmd) (streaming : Bool) (continuation : Nat) :
    Follows nobody (sendFor side cmd streaming continuation)
      (sendFor side cmd streaming continuation) := by
  apply (follows_sendCmdFrom side continuation cmd streaming).bind
  intro answer
  cases answer with
  | ok id =>
    refine Follows.bind ?_ fun _ => follows_pure _
    exact follows_modify (fun _ => rfl) (fun _ _ _ => rfl) fun _ _ => rfl
  | error e => exact follows_pure _

theorem follows_cancelAll (reason : String) :
    Follows nobody (Program.fabric.cancelAll reason) (Program.fabric.cancelAll reason) :=
  follows_onTable (·.cancelAll reason)

theorem follows_stop :
    Follows nobody Operation.stop.perform Operation.stop.perform := by
  have hclosed : Follows nobody (Program.router.modify .close) (Program.router.modify .close) :=
    follows_router_step _
  have hteardown : Follows nobody (Program.tearDown "test stopped")
      (Program.tearDown "test stopped") := hclosed.bind fun _ => follows_cancelAll _
  exact composes_follows.beginStop follows_lifecycle_step
    (hteardown.bind fun _ => follows_pure _)

/-- An operation in which no foreign listener has a part mimics itself. -/
theorem follows_operation (op : Operation) (hop : op.Typed nobody) :
    Follows nobody op.perform op.perform := by
  cases op with
  | sendCmd handler cmd streaming =>
    exact (follows_newCell hop).bind (follows_sendFor handler.side cmd streaming)
  | send p msg => exact composes_follows.send fits_follows.toReaches p msg
  | returnResult result => exact composes_follows.returnResult fits_follows.complete result
  | complete completion =>
    have haccept := @follows_accept nobody .tester (.job (.completion completion))
    rw [Task.map, Job.typed, show completion.typed = completion from hop] at haccept
    exact haccept
  | stop => exact follows_stop
  | await => exact follows_accept .tester .mark
  | acknowledge callback => exact follows_lifecycle_step _

/-- Whatever mimics a program follows it. -/
theorem Mimics.follows {p p' : Program α} (h : Mimics nobody p p') : Follows nobody p p' := by
  induction h with
  | pure x => exact follows_pure x
  | bind hp hf ihp ihf => exact ihp.bind ihf
  | consult hf hblind ih => exact follows_consult ih hblind
  | note hf =>
    refine follows_modifyGet hf.unheard hf.typed fun a side => ?_
    rw [(hf.noted a).notes]
    rfl
  | emit side event => exact follows_emit side event
  | complete completion => exact follows_accept .tester (.job (.completion completion))
  | perform op hop => exact follows_operation op hop

end Operations

end Switchboard.App
