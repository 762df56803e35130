import Switchboard.Proofs.App.Turning
/-!
# Awaiting an outcome

A command is sent for a future whose promise waits in the place of a handler. Both sends are
answered alike, and both applications go on beside each other until the last outcome is delivered:
it keeps the promise where it would have been told to the handler.
-/
namespace Switchboard.App

variable {w : Watch} {hand : Nat} {a b c : App}

section Beginnings

theorem lt_succ_of_some_eq (p : Nat) : ∀ q, some p = some q → q < p + 1 := by
  rintro _ ⟨⟩
  exact Nat.lt_succ_self p

/-- The outcome of a command is awaited, by which a promise is to be kept. -/
def Watch.awaiting (k p : Nat) : Watch where
  cell := some (k, .ofHandler (.promise p))
  promise := some p
  cells := k + 1
  promises := p + 1
  fits owed held := owed = 1 ∧ held = some .pending ∨ owed = 0 ∧ held = some .lost
  inRange := lt_succ_of_some_eq p
  loses := by
    rintro _ _ n held ⟨⟩ (⟨hone, -⟩ | ⟨hnone, -⟩)
    · exact ⟨.inr ⟨Nat.succ.inj hone, rfl⟩, p, rfl, rfl⟩
    · exact absurd hnone (Nat.succ_ne_zero n)

/-- A task that refers to something that is there is not for what is new. -/
theorem AnchoredTask.keeps_eq_false {task : Task Job}
    (h : AnchoredTask a.cells.size a.promises.size task)
    (hcell : ∀ k, w.number = some k → k = a.cells.size)
    (hpromise : ∀ p, w.promise = some p → p = a.promises.size) : w.keeps task = false := by
  rcases task with job | _
  · cases job with
    | resume k outcome terminal =>
      exact decide_eq_false fun hnumber => Nat.ne_of_lt h (hcell k hnumber)
    | completion c =>
      cases c with
      | promise p => exact decide_eq_false fun hp => Nat.ne_of_lt h (hpromise p hp)
      | scripted | foreign => rfl
    | arrival | initExtension | startExtension | phase => rfl
  · rfl

/-- Nothing is owed to what is new. -/
theorem Anchored.owed_eq_zero (ha : a.Anchored) (hcell : ∀ k, w.number = some k → k = a.cells.size)
    (hpromise : ∀ p, w.promise = some p → p = a.promises.size) : w.owed a = 0 := by
  have hqueued : a.testerWorker.queue.countP w.keeps = 0 := by
    refine List.countP_eq_zero.mpr fun task htask => ?_
    rw [(ha.tasks .tester task htask).keeps_eq_false hcell hpromise]
    exact Bool.false_ne_true
  have hwaiting : w.waiting a.router.table = 0 := by
    rw [Watch.waiting]
    cases hnumber : w.number with
    | none => rfl
    | some k =>
      refine List.countP_eq_zero.mpr fun e he heq => ?_
      exact Nat.ne_of_lt (ha.entries e he) ((of_decide_eq_true heq).trans (hcell k hnumber))
  rw [Watch.owed, hwaiting, hqueued]

/-- A new continuation with a new promise, beside one with a handler: the ending is in hand. -/
theorem Anchored.awaiting (ha : a.Anchored) (handler : Handler) :
    Beside (.awaiting a.cells.size a.promises.size) 1
      ((a.withPromises (a.promises.push .pending)).withCells
        (a.cells.push (.ofHandler (.promise a.promises.size))))
      (a.withCells (a.cells.push (.ofHandler handler))) := by
  have hcell (k : Nat) (h : (Watch.awaiting a.cells.size a.promises.size).number = some k) :
      k = a.cells.size := (Option.some.inj h).symm
  have hpromise (p : Nat) (h : (Watch.awaiting a.cells.size a.promises.size).promise = some p) :
      p = a.promises.size := (Option.some.inj h).symm
  have hcells (handler : Handler) : (a.cells.push (.ofHandler handler)).size = a.cells.size + 1 :=
    Array.size_push _
  have hpromises : (a.promises.push .pending).size = a.promises.size + 1 := Array.size_push _
  have hheld : (a.promises.push .pending)[a.promises.size]? = some .pending :=
    Array.getElem?_push_size
  constructor
  · constructor
    · constructor
      · exact ha.sharded
      · exact fun e he => Nat.lt_of_lt_of_le (ha.entries e he) (hcells _ ▸ Nat.le_succ _)
      · exact fun side task htask => (ha.tasks side task htask).mono (hcells _ ▸ Nat.le_succ _)
          (hpromises ▸ Nat.le_succ _)
      · intro i c p hfound hslot
        rcases getElem?_push_ofHandler hfound with ⟨-, rfl⟩ | hfound
        · obtain rfl := Handler.promise.inj (HandlerSlot.waiting.inj hslot)
          exact hpromises ▸ Nat.lt_succ_self _
        · exact Nat.lt_of_lt_of_le (ha.handlers i c p hfound hslot) (hpromises ▸ Nat.le_succ _)
    · rintro _ _ ⟨⟩
      exact Array.getElem?_push_size
    · exact Nat.le_of_eq (hcells _).symm
    · exact Nat.le_of_eq hpromises.symm
    · rintro i c _ ⟨⟩ hfound hslot
      rcases getElem?_push_ofHandler hfound with ⟨rfl, -⟩ | hfound
      · rfl
      · exact absurd (ha.handlers i c _ hfound hslot) (Nat.lt_irrefl _)
    · intro e he hnumber
      exact absurd (hcell _ hnumber) (Nat.ne_of_lt (ha.entries e he))
    · intro side task htask hkeeps
      rw [(ha.tasks side task htask).keeps_eq_false hcell hpromise] at hkeeps
      cases hkeeps
    · exact .inl ⟨congrArg (1 + ·) (ha.owed_eq_zero hcell hpromise), hheld⟩
    · intro hlost
      cases hheld.symm.trans hlost
  · rfl
  · intro side
    have hreplaced : (Watch.awaiting a.cells.size a.promises.size).replaced = id :=
      funext fun task => Watch.replaced_eq (.inr rfl)
    rw [hreplaced, List.map_id]
    rfl
  · intro i
    change (a.cells.push _)[i]?.map _ = (a.cells.push _)[i]?.map _
    rw [Array.getElem?_push, Array.getElem?_push]
    split
    · next heq =>
      subst heq
      have hveil : (Watch.awaiting a.cells.size a.promises.size).veil a.cells.size =
          fun _ => .silent := if_pos rfl
      rw [hveil]
      rfl
    · rfl

end Beginnings

section Sendings

/-- Two programs that send alike: what was in hand is handed over, unless the send is refused. -/
def HandsOver (w : Watch) {α : Type} (p p' : Program (Except Fault α)) : Prop :=
  ∀ hand a b, Beside w (hand + 1) a b → (p.run a).1 = (p'.run b).1 ∧
    Beside w (if (p.run a).1.isOk then hand else hand + 1) (p.run a).2 (p'.run b).2

variable {α β : Type}

theorem handsOver_error (e : Fault) : HandsOver w (pure (.error e) : Program (Except Fault α))
    (pure (.error e)) := fun _ _ _ h => ⟨rfl, h⟩

/-- Whatever is done alike before a send. -/
theorem Heeds.bind_handsOver {p p' : Program α} {f f' : α → Program (Except Fault β)}
    (hp : Heeds w p p') (hf : ∀ x, HandsOver w (f x) (f' x)) : HandsOver w (p >>= f) (p' >>= f') := by
  intro hand a b h
  obtain ⟨hanswer, hbeside⟩ := hp (hand + 1) a b h
  rw [run_bind, run_bind, ← hanswer]
  exact hf _ hand _ _ hbeside

/-- A program that looks at nothing that is watched, and then sends. -/
theorem handsOver_consult {f f' : App → Program (Except Fault α)}
    (hf : ∀ a, HandsOver w (f a) (f' a)) (hblind : ∀ a, f' a.stripped = f' a) :
    HandsOver w (get >>= f) (get >>= f') := by
  intro hand a b h
  have hrun : (get >>= f').run b = (f' a).run b := by
    rw [← hblind a, h.same, hblind b]
    rfl
  rw [hrun]
  exact hf a hand a b h

/-- Whatever is done alike after a send. -/
theorem HandsOver.bind {p p' : Program (Except Fault α)}
    {f f' : Except Fault α → Program (Except Fault β)} (hp : HandsOver w p p')
    (hf : ∀ x, Heeds w (f x) (f' x)) (hok : ∀ x a, ((f x).run a).1.isOk = x.isOk) :
    HandsOver w (p >>= f) (p' >>= f') := by
  intro hand a b h
  obtain ⟨hanswer, hbeside⟩ := hp hand a b h
  rw [run_bind, run_bind, ← hanswer, hok]
  exact hf _ _ _ _ hbeside

/-- The router takes the request of the continuation that is watched. -/
theorem handsOver_accepts {request : PendingRequest Nat Side} (hcell : request.continuation < w.cells)
    (hnumber : w.number = some request.continuation) (hexecutor : request.executor = .tester)
    (hstreaming : request.streaming = false) :
    HandsOver w (Program.router.step (·.accept request)) (Program.router.step (·.accept request)) := by
  intro hand a b h
  have hrun (c : App) : (Program.router.step (·.accept request)).run c =
      ((c.router.accept request).1, c.withRouter (c.router.accept request).2) := rfl
  have hone : (if w.number = some request.continuation then 1 else 0) = 1 := if_pos hnumber
  have hhand : Beside w (hand + if w.number = some request.continuation then 1 else 0) a b := by
    rwa [hone]
  have haccepts := hhand.accepts hcell fun _ => ⟨hexecutor, hstreaming⟩
  rw [hrun, hrun, ← h.router]
  rcases haccepts with ⟨id, hid, hbeside⟩ | ⟨e, he, hbeside⟩
  · dsimp only
    rw [hid]
    exact ⟨rfl, hbeside⟩
  · dsimp only
    rw [he]
    rw [hone] at hbeside
    exact ⟨rfl, hbeside⟩

/-- An outlet of the tester sends for the continuation that is watched. -/
theorem handsOver_through {p : Outlet Side} (hp : p.executor = .tester) (cmd : Cmd) {k : Nat}
    (hk : k < w.cells) (hnumber : w.number = some k) :
    HandsOver w (p.sendCmd Program.fabric cmd k false) (p.sendCmd Program.fabric cmd k false) := by
  rw [Outlet.sendCmd]
  cases cmd.validate with
  | error e => exact handsOver_error _
  | ok _ =>
    refine heeds_router_get.bind_handsOver fun r => ?_
    cases r.ensureOpen with
    | error e => exact handsOver_error _
    | ok _ =>
      refine (handsOver_accepts hk hnumber hp rfl).bind (fun answer => ?_) fun answer a => ?_
      · cases answer with
        | error e => exact heeds_pure _
        | ok id =>
          refine Heeds.bind (composes_heeds.forwardTo fits_heeds.toReaches _ _) fun forwarded => ?_
          cases forwarded with
          | error e => exact Heeds.bind (fits_heeds.fail id e) fun _ => heeds_pure _
          | ok _ => exact heeds_pure _
      · cases answer with
        | error e => rfl
        | ok id =>
          dsimp only
          rw [run_bind]
          split
          · rfl
          · rfl

/-- The tester sends for the continuation that is watched. -/
theorem handsOver_sendFor (cmd : Cmd) {k : Nat} (hk : k < w.cells) (hnumber : w.number = some k) :
    HandsOver w (sendFor .tester cmd false k) (sendFor .tester cmd false k) := by
  have hduring {p : Outlet Side} (hp : p.executor = .tester) :
      HandsOver w (PermitPool.during Program.pool (p.sendCmd Program.fabric cmd k false))
        (PermitPool.during Program.pool (p.sendCmd Program.fabric cmd k false)) :=
    (heeds_pool _).bind_handsOver fun _ => (handsOver_through hp cmd hk hnumber).bind
      (fun _ => (heeds_pool _).answer) fun _ _ => rfl
  have hfrom : HandsOver w (Program.sendCmdFrom .tester k cmd false)
      (Program.sendCmdFrom .tester k cmd false) := by
    refine handsOver_consult (fun a => ?_) fun _ => rfl
    refine (hduring (p := a.outlet .tester) rfl).bind (fun answer => ?_) fun answer a => ?_
    · cases answer with
      | ok id => exact (heeds_count _).answer
      | error e => exact heeds_pure _
    · cases answer with
      | ok id => rfl
      | error e => rfl
  refine hfrom.bind (fun answer => ?_) fun answer a => ?_
  · cases answer with
    | ok id =>
      refine Heeds.answer (heeds_modify ?_)
      exact ⟨fun _ => rfl, fun _ _ => rfl, fun _ => rfl, fun _ => rfl, fun _ => rfl, fun _ => rfl⟩
    | error e => exact heeds_pure _
  · cases answer with
    | ok id => rfl
    | error e => rfl

/-- A command is sent for a future beside one that is sent for a handler: both are answered alike, and
when they are accepted, the outcome is awaited. -/
theorem Anchored.sendCmdAsync (ha : a.Anchored) (tag : String) (cmd : Cmd) {handler : Handler}
    (hside : handler.side = .tester) :
    let sent := (Program.sendCmd handler cmd false).run a
    let kept := ((Program.sendCmdAsync tag cmd).run a).2
    kept.futures.lookup tag = some (.cmd (sent.1.map fun _ => a.promises.size)) ∧
      Beside (.awaiting a.cells.size a.promises.size) (if sent.1.isOk then 0 else 1) kept
        sent.2 := by
  have hrun (c : App) (handler : Handler) (hside : handler.side = .tester) :
      (Program.sendCmd handler cmd false).run c = (sendFor .tester cmd false c.cells.size).run
        (c.withCells (c.cells.push (.ofHandler handler))) := by
    rw [sendCmd_eq, hside]
    rfl
  have hasync : ((Program.sendCmdAsync tag cmd).run a).2 =
      ((Program.keepFuture tag (.cmd (((Program.sendCmd (.promise a.promises.size) cmd false).run
        (a.withPromises (a.promises.push .pending))).1.map fun _ => a.promises.size))).run
        ((Program.sendCmd (.promise a.promises.size) cmd false).run
          (a.withPromises (a.promises.push .pending))).2).2 := rfl
  obtain ⟨hanswer, hbeside⟩ := handsOver_sendFor (w := .awaiting a.cells.size a.promises.size) cmd
    (Nat.lt_succ_self _) rfl 0 _ _ (ha.awaiting handler)
  dsimp only
  rw [hasync, hrun _ _ rfl, hrun _ _ hside]
  constructor
  · rw [← hanswer]
    exact List.lookup_cons_self
  · rw [← hanswer]
    exact hbeside.futures _ _

end Sendings

section Endings

variable {k p : Nat} {o : Outcome}

/-- A continuation whose only call is in progress. -/
def begun (o : Outcome) : Continuation Handler where
  slot := .running
  history := [.arrival o true true]

/-- A continuation that was called once, with an outcome that ends it. -/
def delivered (o : Outcome) : Continuation Handler where
  slot := .released
  finished := true
  history := [.arrival o true true, .returned]

theorem getD_of_getElem? {d : Continuation Handler} (h : a.cells[k]? = some d) :
    a.cells.getD k { slot := .released } = d := by
  rw [Array.getD_eq_getD_getElem?, h]
  rfl

/-- The last outcome is delivered to a handler that was not called before. -/
theorem run_resume_ofHandler {handler : Handler} (h : a.cells[k]? = some (.ofHandler handler))
    (o : Outcome) :
    (Continuation.resume (Program.cell k) Program.callHandler o true).run a =
      (Continuation.callOut (Program.cell k) Program.callHandler o true handler 1).run
        (a.setCell k (begun o)) := by
  rw [Continuation.resume, run_bind, run_cell_step, getD_of_getElem? h]
  rfl

/-- A call ends with the last outcome. -/
theorem run_callOut_last {handler : Handler}
    (h : ((Program.callHandler handler 1 o).run a).2.cells[k]? = some (begun o)) :
    (Continuation.callOut (Program.cell k) Program.callHandler o true handler 1).run a =
      (((Program.callHandler handler 1 o).run a).1,
        ((Program.callHandler handler 1 o).run a).2.setCell k (delivered o)) := by
  have hrun : (Continuation.callOut (Program.cell k) Program.callHandler o true handler 1).run a =
      (((Program.callHandler handler 1 o).run a).1,
        ((Program.callHandler handler 1 o).run a).2.setCell k
          ((((Program.callHandler handler 1 o).run a).2.cells.getD k
            { slot := .released }).putBack true handler)) := rfl
  rw [hrun, getD_of_getElem? h]
  rfl

theorem Watched.over_setCell {d d' : Continuation Handler}
    (ha : Watched (.over (some (k, d)) none) 0 a)
    (hslot : ∀ handler, d'.slot ≠ .waiting handler) :
    Watched (.over (some (k, d')) none) 0 (a.setCell k d') := by
  have hanchored : (a.setCell k d').Anchored :=
    (ha.toAnchored.watched.setCell (by nofun) fun p hp => absurd hp (hslot _)).toAnchored
  obtain ⟨hnone, -⟩ := ha.fits
  obtain ⟨hwaiting, hqueues⟩ := ha.idle ((Nat.zero_add _).symm.trans hnone)
  refine hanchored.over ?_ nofun nofun hwaiting hqueues nofun
  rintro _ _ ⟨⟩
  exact getElem?_setCell_self (ha.cell k d rfl) d'

/-- The last outcome is delivered to whoever listens. -/
theorem Watched.delivered {handler : Handler}
    (ha : Watched (.over (some (k, .ofHandler handler)) none) 0 a) :
    Watched (.over (some (k, delivered o)) none) 0
      ((Continuation.resume (Program.cell k) Program.callHandler o true).run a).2 := by
  have hbegun : Watched (.over (some (k, begun o)) none) 0 (a.setCell k (begun o)) :=
    ha.over_setCell nofun
  have hmasked : handler.masked = handler.masked := rfl
  have hcalled := (heeds_callHandler (w := .over (some (k, begun o)) none) hmasked (by nofun) 1 o 0
    _ _ (hbegun.beside rfl)).2.watched
  rw [run_resume_ofHandler (ha.cell k _ rfl), run_callOut_last (hcalled.cell k _ rfl)]
  exact hcalled.over_setCell nofun

/-- The application after an outcome has kept a promise. -/
def fulfilled (a : App) (k p : Nat) (o : Outcome) : App :=
  { a with
    counters := a.counters.observe o
    promises := a.promises.setIfInBounds p (.outcome o)
    cells := a.cells.setIfInBounds k (delivered o) }

/-- The last outcome keeps a promise. -/
theorem run_resume_promise (h : a.cells[k]? = some (.ofHandler (.promise p))) (o : Outcome) :
    (Continuation.resume (Program.cell k) Program.callHandler o true).run a =
      (.ok (), a.fulfilled k p o) := by
  have hcalled : (Program.callHandler (.promise p) 1 o).run (a.setCell k (begun o)) =
      (.ok (), ((a.setCell k (begun o)).observing .tester o).withPromises
        (a.promises.setIfInBounds p (.outcome o))) := run_callHandler (.promise p) 1 o _
  have hbegun : ((Program.callHandler (.promise p) 1 o).run
      (a.setCell k (begun o))).2.cells[k]? = some (begun o) := by
    rw [hcalled]
    exact getElem?_setCell_self h (begun o)
  rw [run_resume_ofHandler h, run_callOut_last hbegun, hcalled]
  simp only [observing, if_true, setCell, withPromises, fulfilled,
    Array.setIfInBounds_setIfInBounds]

/-- A promise is kept by an outcome, for good. -/
theorem Watched.fulfilled (ha : Watched (.awaiting k p) hand a)
    (howed : (Watch.awaiting k p).owed a = 0) (o : Outcome) :
    Watched (.over (some (k, App.delivered o)) (some (p, .outcome o))) 0 (a.fulfilled k p o) := by
  have hcell : a.cells[k]? = some (.ofHandler (.promise p)) := ha.cell k _ rfl
  obtain ⟨hwaiting, hqueues⟩ := ha.idle howed
  have hwatched : Watched (.over (some (k, .ofHandler (.promise p))) none) 0 a := by
    refine ha.toAnchored.over ?_ nofun nofun hwaiting (fun side task htask => ?_) nofun
    · rintro _ _ ⟨⟩
      exact hcell
    · exact Watch.keeps_eq_false_of (hqueues side task htask) (fun _ hk => hk) nofun
  have hresumed := hwatched.delivered (o := o)
  rw [run_resume_promise hcell] at hresumed
  refine hresumed.toAnchored.over ?_ ?_ ?_ hwaiting hqueues ?_
  · rintro _ _ ⟨⟩
    exact getElem?_setCell_self hcell (App.delivered o)
  · rintro _ _ ⟨⟩
    exact Array.getElem?_setIfInBounds_self_of_lt (ha.promises)
  · rintro i d _ ⟨⟩ hfound hslot
    by_cases heq : k = i
    · exact congrArg some heq
    · exact ha.sole i d p rfl ((getElem?_setCell_of_ne heq (App.delivered o)).symm.trans hfound)
        hslot
  · nofun

/-- Nothing is owed in the second application either. -/
theorem Beside.over_other {d : Continuation Handler} (h : Beside w hand a b) (hb : b.Anchored)
    (htwin : w.twin = none) (hnumber : w.number = some k) (howed : w.owed a = 0)
    (hcell : b.cells[k]? = some d) : Watched (.over (some (k, d)) none) 0 b := by
  obtain ⟨hwaiting, hqueues⟩ := h.watched.idle howed
  refine hb.over ?_ nofun nofun ?_ (fun side task htask => ?_) nofun
  · rintro _ _ ⟨⟩
    exact hcell
  · rw [Watch.waiting, hnumber, h.router] at hwaiting
    exact hwaiting
  · have hmem : maskedTask task ∈ ((a.worker side).queue.map w.replaced).map maskedTask := by
      rw [h.queues side]
      exact List.mem_map_of_mem htask
    obtain ⟨_, hreplaced, halike⟩ := List.mem_map.mp hmem
    obtain ⟨other, hother, rfl⟩ := List.mem_map.mp hreplaced
    rw [w.replaced_eq (.inr htwin)] at halike
    rcases task with job | _
    · cases job with
      | resume i outcome terminal =>
        obtain rfl := eq_resume_of_masked halike
        exact decide_eq_false fun hk =>
          of_decide_eq_false (hqueues side _ hother) (hnumber.trans hk)
      | completion c =>
        cases c with
        | promise | scripted | foreign => rfl
      | arrival | initExtension | startExtension | phase => rfl
    · rfl

/-- Somebody listens at the continuation of the second application who was not called yet, if so of
the first. -/
theorem Beside.ofHandler {handler : Handler} (h : Beside w hand a b)
    (hcell : w.cell = some (k, .ofHandler handler)) :
    ∃ handler', b.cells[k]? = some (.ofHandler handler') := by
  have hcells := h.cells k
  rw [h.watched.cell k _ hcell] at hcells
  obtain ⟨⟨slot, finished, history⟩, hfound, heq⟩ := Option.map_eq_some_iff.mp hcells.symm
  obtain ⟨hslot, hfinished, hhistory⟩ := Continuation.mk.inj heq
  rcases slot with handler' | _ | _
  · cases hfinished
    cases hhistory
    exact ⟨handler', hfound⟩
  · cases hslot
  · cases hslot

end Endings

section Deliveries

variable {k p : Nat}

/-- What is watched of an application is over, and another one goes on beside it. -/
theorem Beside.over {cell : Option (Nat × Continuation Handler)}
    {promise : Option (Nat × Promise)} (h : Beside w hand a b)
    (ha : Watched (.over cell promise) 0 a) (htwin : w.twin = none)
    (hnumber : w.number = cell.map (·.1)) : Beside (.over cell promise) 0 a b where
  watched := ha
  same := h.same
  queues side := by
    have hreplaced : (Watch.over cell promise).replaced = w.replaced :=
      funext fun task => (Watch.replaced_eq (.inr rfl)).trans (w.replaced_eq (.inr htwin)).symm
    rw [hreplaced]
    exact h.queues side
  cells i := by
    have hveil : (Watch.over cell promise).veil i = w.veil i := by
      rw [Watch.veil, Watch.veil, hnumber]
      rfl
    rw [hveil]
    exact h.cells i

/-- What becomes of a command that was sent for a promise, beside one that was sent for a handler:
both still wait; or the last outcome has kept the promise and was told to the handler; or it was
refused, and neither will be told anything. -/
inductive Prospect (k p : Nat) (b c : App) : Prop
  | waits (h : Beside (.awaiting k p) 0 b c) (hc : c.Anchored)
    (hpending : b.promises[p]? = some .pending) : Prospect k p b c
  | called (o : Outcome) (hlast : o.isTerminal = true)
    (hb : Watched (.over (some (k, delivered o)) (some (p, .outcome o))) 0 b)
    (hc : Watched (.over (some (k, delivered o)) none) 0 c) : Prospect k p b c
  | discarded (h : Beside (.over (some (k, .ofHandler (.promise p))) (some (p, .lost))) 0 b c)
    (hc : c.Anchored) : Prospect k p b c

/-- As long as no outcome is delivered, the command waits or was refused. -/
theorem Beside.prospect (h : Beside (.awaiting k p) 0 b c) (hc : c.Anchored) : Prospect k p b c := by
  have hwatched := h.watched
  rcases hwatched.fits with ⟨-, hpending⟩ | ⟨hnone, hlost⟩
  · exact .waits h hc hpending
  · rw [Nat.zero_add] at hnone
    obtain ⟨hwaiting, hqueues⟩ := hwatched.idle hnone
    refine .discarded (h.over (hwatched.toAnchored.over ?_ ?_ ?_ hwaiting hqueues ?_) rfl rfl) hc
    · exact hwatched.cell
    · rintro _ _ ⟨⟩
      exact hlost
    · exact hwatched.sole
    · exact fun _ _ => hwatched.refused hlost

/-- A task that is for a command that waits is the delivery of its last outcome. -/
theorem Watched.eq_resume_of_keeps {side : Side} {task : Task Job}
    (hb : Watched (.awaiting k p) hand b) (htask : task ∈ (b.worker side).queue)
    (hkeeps : (Watch.awaiting k p).keeps task = true) :
    ∃ o : Outcome, o.isTerminal = true ∧ task = .job (.resume k o true) := by
  obtain ⟨-, hlast⟩ := hb.kept side task htask hkeeps
  rcases task with job | _
  · cases job with
    | resume i o terminal =>
      obtain rfl : k = i := Option.some.inj (of_decide_eq_true hkeeps)
      obtain ⟨rfl, hterminal⟩ := hlast
      exact ⟨o, hterminal, rfl⟩
    | completion completion => cases hlast
    | arrival | initExtension | startExtension | phase => cases hkeeps
  · cases hkeeps

/-- A turn that is for a command that waits runs that delivery. -/
theorem Watched.delivery {t : Turn} (hb : Watched (.awaiting k p) hand b)
    (hmeets : t.Meets (.awaiting k p) b) :
    ∃ o tasks, o.isTerminal = true ∧ t = .task .tester ∧
      (b.worker .tester).queue = .job (.resume k o true) :: tasks := by
  cases t with
  | task side =>
    obtain ⟨task, hnext, hkeeps⟩ := hmeets
    obtain ⟨tasks, hqueue⟩ := exists_queue_of_next hnext
    have htask : task ∈ (b.worker side).queue := hqueue ▸ List.mem_cons_self
    obtain ⟨rfl, -⟩ := hb.kept side task htask hkeeps
    obtain ⟨o, hlast, rfl⟩ := hb.eq_resume_of_keeps htask hkeeps
    exact ⟨o, tasks, hlast, rfl, hqueue⟩
  | step | host | start | answer | flush | abort | shutDown | leave => cases hmeets

/-- The delivery of the last outcome keeps the promise, and calls the handler. -/
theorem Beside.delivered {o : Outcome} {tasks : List (Task Job)}
    (h : Beside (.awaiting k p) 0 b c) (hc : c.Anchored) (hlast : o.isTerminal = true)
    (hqueue : (b.worker .tester).queue = .job (.resume k o true) :: tasks) :
    Prospect k p (b.turned (.task .tester)) (c.turned (.task .tester)) := by
  obtain ⟨task, hnext', halike, hpopped⟩ := h.popped hqueue
  obtain rfl := eq_resume_of_masked halike.symm
  have hnext : (b.worker .tester).next.1 = some (.job (.resume k o true)) := by
    rw [Worker.next, hqueue]
  have hkeeps : (Watch.awaiting k p).keeps (.job (.resume k o true)) = true := decide_eq_true rfl
  rw [if_pos hkeeps] at hpopped
  have hwatched := hpopped.watched
  -- the only ending that is owed is the one in hand
  have howed : (Watch.awaiting k p).owed (b.popped .tester) = 0 := by
    rcases hwatched.fits with ⟨hone, -⟩ | ⟨hnone, -⟩
    · omega
    · omega
  obtain ⟨handler, hhandler⟩ := hpopped.ofHandler rfl
  have hb : ((Program.advance .tester).run b).2 = App.counted
      ((b.popped .tester).fulfilled k p o) .tester (.ok ()) := by
    have hrun := run_resume_promise (hwatched.cell k _ rfl) o
    rw [run_advance_job hnext, Program.runJob, hrun]
  have hc' := hpopped.over_other (hc.popped .tester) rfl rfl howed hhandler
  have hc : ((Program.advance .tester).run c).2 = App.counted
      ((Continuation.resume (Program.cell k) Program.callHandler o true).run (c.popped .tester)).2
      .tester
      ((Continuation.resume (Program.cell k) Program.callHandler o true).run
        (c.popped .tester)).1 := run_advance_job hnext'
  refine .called o hlast ?_ ?_
  · change Watched _ 0 ((Program.advance .tester).run b).2
    rw [hb]
    exact (((hwatched.fulfilled howed o).beside rfl).counted .tester _).watched
  · change Watched _ 0 ((Program.advance .tester).run c).2
    rw [hc]
    exact ((hc'.delivered.beside rfl).counted .tester _).watched

/-- Whatever happens to both, it is clear what becomes of the command. -/
theorem Prospect.turned (h : Prospect k p b c) (t : Turn) : Prospect k p (b.turned t) (c.turned t) := by
  cases h with
  | waits h hc hpending =>
    by_cases hmeets : t.Meets (.awaiting k p) b
    · obtain ⟨o, tasks, hlast, rfl, hqueue⟩ := h.watched.delivery hmeets
      exact h.delivered hc hlast hqueue
    · exact (h.turned hmeets).prospect (hc.turned t)
  | called o hlast hb hc => exact .called o hlast (hb.over_turned t) (hc.over_turned t)
  | discarded h hc => exact .discarded (h.turned (h.watched.not_meets_of_over t)) (hc.turned t)

theorem Prospect.course (h : Prospect k p b c) (turns : List Turn) :
    Prospect k p (turns.foldl App.turned b) (turns.foldl App.turned c) := by
  induction turns generalizing b c with
  | nil => exact h
  | cons t turns ih => exact ih (h.turned t)

end Deliveries

end Switchboard.App
