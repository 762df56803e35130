import Switchboard.Proofs.App.Tending
/-!
# Programs that do alike

What callbacks, handlers and hosts do does not depend on who keeps promises, or on who listens at
one continuation. In two applications that go on beside each other they are answered alike, and the
applications go on beside each other.
-/
namespace Switchboard.App

/-- Two programs that do alike to applications beside each other, whatever is in hand. -/
def Heeds (w : Watch) {α : Type} (p p' : Program α) : Prop :=
  ∀ hand a b, Beside w hand a b →
    (p.run a).1 = (p'.run b).1 ∧ Beside w hand (p.run a).2 (p'.run b).2

variable {w : Watch} {α β : Type}

section Composition

theorem heeds_pure (x : α) : Heeds w (pure x) (pure x) := fun _ _ _ h => ⟨rfl, h⟩

theorem Heeds.bind {p p' : Program α} {f f' : α → Program β} (hp : Heeds w p p')
    (hf : ∀ x, Heeds w (f x) (f' x)) : Heeds w (p >>= f) (p' >>= f') := by
  intro hand a b h
  obtain ⟨hanswer, hbeside⟩ := hp hand a b h
  rw [run_bind, run_bind, ← hanswer]
  exact hf _ hand _ _ hbeside

/-- A program that ends with an answer. -/
theorem Heeds.answer {p p' : Program α} (hp : Heeds w p p') {f : α → β} :
    Heeds w (p >>= fun x => pure (f x)) (p' >>= fun x => pure (f x)) :=
  hp.bind fun x => heeds_pure (f x)

theorem composes_heeds : Composes fun (α : Type) (p : Program α) => Heeds w p p where
  pure := heeds_pure
  bind := Heeds.bind

/-- A program that looks at nothing that is watched, and then goes on by what it has seen. -/
theorem heeds_consult {f f' : App → Program α} (hf : ∀ a, Heeds w (f a) (f' a))
    (hblind : ∀ a, f' a.stripped = f' a) : Heeds w (get >>= f) (get >>= f') := by
  intro hand a b h
  have hrun : (get >>= f').run b = (f' a).run b := by
    rw [← hblind a, h.same, hblind b]
    rfl
  rw [hrun]
  exact hf a hand a b h

theorem heeds_modifyGet {f : App → α × App} (hf : Blind f) :
    Heeds w (modifyGet f) (modifyGet f) := fun _ _ _ h => h.blind hf

theorem heeds_modify {f : App → App} (hf : Blind fun a => (PUnit.unit, f a)) :
    Heeds w (modify f : Program PUnit) (modify f) := heeds_modifyGet hf

end Composition

section Notes

theorem heeds_emit (side : Side) (event : Event) :
    Heeds w (Program.emit side event) (Program.emit side event) := by
  refine heeds_modify ⟨fun a => ?_, fun a other => ?_, fun a => ?_, fun a => ?_, fun _ => rfl,
    fun a => ?_⟩
  · cases side
    · rfl
    · rfl
  · cases side <;> cases other <;> rfl
  · cases side
    · rfl
    · rfl
  · cases side
    · rfl
    · rfl
  · cases side
    · rfl
    · rfl

theorem heeds_count (f : Counters → Counters) :
    Heeds w (Program.count f) (Program.count f) :=
  heeds_modify ⟨fun _ => rfl, fun _ _ => rfl, fun _ => rfl, fun _ => rfl, fun _ => rfl,
    fun _ => rfl⟩

theorem heeds_lifecycle_step (f : Lifecycle → α × Lifecycle) :
    Heeds w (Program.lifecycle.step f) (Program.lifecycle.step f) :=
  heeds_modifyGet ⟨fun _ => rfl, fun _ _ => rfl, fun _ => rfl, fun _ => rfl, fun _ => rfl,
    fun _ => rfl⟩

theorem heeds_boundary_step (i : Nat) (f : Boundary → α × Boundary) :
    Heeds w ((Program.boundary i).step f) ((Program.boundary i).step f) :=
  heeds_modifyGet ⟨fun _ => rfl, fun _ _ => rfl, fun _ => rfl, fun _ => rfl, fun _ => rfl,
    fun _ => rfl⟩

theorem heeds_pool (f : PermitPool → PermitPool) :
    Heeds w (Program.pool.modify f) (Program.pool.modify f) :=
  heeds_modifyGet ⟨fun _ => rfl, fun _ _ => rfl, fun _ => rfl, fun _ => rfl, fun _ => rfl,
    fun _ => rfl⟩

theorem heeds_during {p p' : Program α} (hp : Heeds w p p') :
    Heeds w (PermitPool.during Program.pool p) (PermitPool.during Program.pool p') :=
  (heeds_pool _).bind fun _ => hp.bind fun _ => (heeds_pool _).answer

theorem heeds_log (level : Int32) (site : LogSite) (message : String) :
    Heeds w (Program.log level site message) (Program.log level site message) := by
  rw [Program.log]
  split
  · exact heeds_pure _
  · refine Heeds.bind (heeds_modify ?_) fun _ => heeds_pure _
    exact ⟨fun _ => rfl, fun _ _ => rfl, fun _ => rfl, fun _ => rfl, fun _ => rfl, fun _ => rfl⟩

/-- Another promise is settled, and any promise of the second application. -/
theorem heeds_settlePromise {i : Nat} (hi : w.promise ≠ some i) (j : Nat) (p p' : Promise) :
    Heeds w (Program.settlePromise i p) (Program.settlePromise j p') := fun _ _ _ h =>
  ⟨rfl, h.withPromises (h.watched.settle hi p) _⟩

end Notes

section Parts

theorem heeds_accept (side : Side) (task task' : Task Job)
    (halike : maskedTask (w.replaced task) = maskedTask task')
    (hanchored : AnchoredTask w.cells w.promises task) (hkeeps : w.keeps task = false) :
    Heeds w ((Program.worker side).step (·.accept task))
      ((Program.worker side).step (·.accept task')) := fun _ _ _ h =>
  h.accept side halike hanchored hkeeps

/-- The router is changed, but not its table. -/
theorem heeds_router_modify {f : Router Nat Side Side → Router Nat Side Side}
    (hf : ∀ r, (f r).table = r.table) :
    Heeds w (Program.router.modify f) (Program.router.modify f) := by
  intro hand a b h
  have hrun (c : App) : (Program.router.modify f).run c = ((), c.withRouter (f c.router)) := rfl
  rw [hrun, hrun, ← h.router]
  have hwatched := h.watched
  refine ⟨rfl, h.withRouter (hwatched.withRouter ?_ ?_ ?_ ?_)⟩
  · rw [hf]
    exact hwatched.sharded
  · rw [hf]
    exact hwatched.entries
  · rw [hf]
    exact hwatched.asked
  · rw [hf]

theorem heeds_router_get : Heeds w Program.router.get Program.router.get := fun _ _ _ h =>
  ⟨h.router, h⟩

theorem heeds_forward (side : Side) (msg : Message) :
    Heeds w (Program.forward side msg) (Program.forward side msg) := by
  unfold Program.forward
  split
  · exact heeds_pure _
  · exact heeds_accept side _ _ rfl trivial rfl

theorem fits_heeds :
    Composes.Fits (fun (α : Type) (p : Program α) => Heeds w p p) Program.fabric where
  get := heeds_router_get
  forward := heeds_forward
  complete id result _ _ _ h :=
    h.onTable (h.watched.sharded.serves_complete id result) (sparing_complete h.watched.sharded _ _)
  fail id fault _ _ _ h :=
    h.onTable (h.watched.sharded.serves_fail id fault) (sparing_fail _ _ _)

theorem heeds_cancelAll (reason : String) :
    Heeds w (Program.fabric.cancelAll reason) (Program.fabric.cancelAll reason) := fun _ _ _ h =>
  h.onTable (PendingTable.serves_cancelAll _ reason) (sparing_cancelAll _ _)

theorem heeds_tearDown (reason : String) :
    Heeds w (Program.tearDown reason) (Program.tearDown reason) :=
  (heeds_router_modify (f := Router.close) fun _ => rfl).bind fun _ => heeds_cancelAll reason

theorem heeds_abort (reason : String) :
    Heeds w (Program.abort reason) (Program.abort reason) :=
  (heeds_router_modify (f := Router.clearRoutes) fun _ => rfl).bind fun _ =>
    heeds_cancelAll reason

theorem heeds_stop (inside : Bool) :
    Heeds w (Program.stop inside) (Program.stop inside) := by
  have hbegun : Heeds w Operation.stop.perform Operation.stop.perform :=
    composes_heeds.beginStop heeds_lifecycle_step
      ((heeds_tearDown "test stopped").bind fun _ => heeds_pure _)
  apply hbegun.bind
  intro stopped
  rcases stopped with never | fault | first
  · exact nomatch never
  · exact heeds_pure _
  · cases first with
    | false => exact heeds_pure _
    | true =>
      cases inside with
      | true => exact heeds_pure _
      | false => exact (heeds_accept .tester .mark .mark rfl trivial rfl).answer

end Parts

section Sends

/-- The router takes a request of another continuation. -/
theorem heeds_accepts {request : PendingRequest Nat Side} (hcell : request.continuation < w.cells)
    (hnumber : w.number ≠ some request.continuation) :
    Heeds w (Program.router.step (·.accept request)) (Program.router.step (·.accept request)) := by
  intro hand a b h
  have hrun (c : App) : (Program.router.step (·.accept request)).run c =
      ((c.router.accept request).1, c.withRouter (c.router.accept request).2) := rfl
  have hnone : (if w.number = some request.continuation then 1 else 0) = 0 := if_neg hnumber
  have hhand : Beside w (hand + if w.number = some request.continuation then 1 else 0) a b := by
    rwa [hnone]
  have haccepts := hhand.accepts hcell fun heq => absurd heq hnumber
  rw [hrun, hrun, ← h.router]
  rcases haccepts with ⟨id, hid, hbeside⟩ | ⟨e, he, hbeside⟩
  · exact ⟨rfl, hbeside⟩
  · rw [hnone] at hbeside
    exact ⟨rfl, hbeside⟩

theorem heeds_sendFor (side : Side) (cmd : Cmd) (streaming : Bool) {i : Nat} (hi : i < w.cells)
    (hnumber : w.number ≠ some i) :
    Heeds w (sendFor side cmd streaming i) (sendFor side cmd streaming i) := by
  have hthrough (p : Outlet Side) : Heeds w (p.sendCmd Program.fabric cmd i streaming)
      (p.sendCmd Program.fabric cmd i streaming) :=
    composes_heeds.sendCmd fits_heeds p cmd (heeds_accepts hi hnumber)
  have hfrom : Heeds w (Program.sendCmdFrom side i cmd streaming)
      (Program.sendCmdFrom side i cmd streaming) := by
    refine heeds_consult (fun a => ?_) fun _ => rfl
    cases side with
    | engine => exact hthrough (a.outlet .engine)
    | tester =>
      apply (heeds_during (hthrough (a.outlet .tester))).bind
      intro answer
      cases answer with
      | ok id => exact (heeds_count _).bind fun _ => heeds_pure _
      | error e => exact heeds_pure _
  apply hfrom.bind
  intro answer
  cases answer with
  | ok id =>
    refine Heeds.bind (heeds_modify ?_) fun _ => heeds_pure _
    exact ⟨fun _ => rfl, fun _ _ => rfl, fun _ => rfl, fun _ => rfl, fun _ => rfl, fun _ => rfl⟩
  | error e => exact heeds_pure _

/-- A command is sent for a new continuation. -/
theorem heeds_sendCmd {handler handler' : Handler} (hmasked : handler.masked = handler'.masked)
    (hadmits : w.Admits handler) (cmd : Cmd) (streaming : Bool) :
    Heeds w (Program.sendCmd handler cmd streaming)
      (Program.sendCmd handler' cmd streaming) := by
  intro hand a b h
  have hrun (c : App) (handler : Handler) : (Program.sendCmd handler cmd streaming).run c =
      (sendFor handler.side cmd streaming c.cells.size).run
        (c.withCells (c.cells.push (.ofHandler handler))) := rfl
  have hpushed := h.push hmasked hadmits
  have hroom : a.cells.size + 1 ≤
      (a.withCells (a.cells.push (.ofHandler handler))).cells.size :=
    Nat.le_of_eq (Array.size_push _).symm
  have habove := hpushed.above hroom (Nat.zero_le _)
  rw [hrun, hrun, ← h.size, ← side_masked handler,
    ← side_masked handler', ← hmasked]
  obtain ⟨hanswer, hbeside⟩ := heeds_sendFor (w := w.above (a.cells.size + 1) 0)
    handler.masked.side cmd streaming (Nat.le_max_right _ _) h.watched.number_ne_size hand _ _ habove
  exact ⟨hanswer, hbeside.of_above⟩

/-- A handler that keeps no promise. -/
theorem admits_of_ne {handler : Handler} (h : ∀ p, handler ≠ .promise p) : w.Admits handler :=
  fun p hp => absurd hp (h p)

/-- A completion that does not keep the promise is queued. -/
theorem heeds_scheduleCompletion {completion completion' : Completion}
    (hmasked : completion.masked = completion'.masked)
    (hadmits : ∀ p, completion = .promise p → p < w.promises ∧ w.promise ≠ some p) :
    Heeds w (Program.scheduleCompletion completion) (Program.scheduleCompletion completion') := by
  have haccept : Heeds w
      ((Program.worker .tester).step (·.execute (.completion completion)))
      ((Program.worker .tester).step (·.execute (.completion completion'))) := by
    have hkeeps : w.keeps (.job (.completion completion)) = false := by
      cases completion with
      | promise p => exact decide_eq_false (hadmits p rfl).2
      | scripted | foreign => rfl
    refine heeds_accept .tester _ _ ?_ ?_ hkeeps
    · rw [w.replaced_eq (.inl hkeeps), maskedTask, maskedTask, Task.map, Task.map, Job.masked,
        Job.masked, hmasked]
    · cases completion with
      | promise p => exact (hadmits p rfl).1
      | scripted | foreign => trivial
  apply haccept.bind
  intro answer
  cases answer with
  | ok _ => exact heeds_pure _
  | error e =>
    rcases completion_eq_or_promise_of_masked hmasked with rfl | ⟨p, q, rfl, rfl⟩
    · cases completion with
      | promise p => exact heeds_settlePromise (hadmits p rfl).2 p _ _
      | scripted | foreign => exact heeds_pure _
    · exact heeds_settlePromise (hadmits p rfl).2 q _ _

/-- A call of the tester, whose completion is queued alike. -/
theorem heeds_counted {call call' : Program (Except Fault Unit)} (hcall : Heeds w call call')
    (f : Counters → Counters) {completion completion' : Completion}
    (hcompletion : Heeds w (Program.scheduleCompletion completion)
      (Program.scheduleCompletion completion')) :
    Heeds w (Program.counted call f (some completion))
      (Program.counted call' f (some completion')) := by
  apply (heeds_during hcall).bind
  intro answer
  cases answer with
  | error e => exact heeds_pure _
  | ok _ => exact (heeds_count f).bind fun _ => hcompletion.bind fun _ => heeds_pure _

/-- A call of the tester whose completion keeps no promise, if it has one. -/
theorem heeds_counted_self {call : Program (Except Fault Unit)} (hcall : Heeds w call call)
    (f : Counters → Counters) {completion : Option Completion}
    (hnone : ∀ p, completion ≠ some (.promise p)) :
    Heeds w (Program.counted call f completion) (Program.counted call f completion) := by
  cases completion with
  | some completion =>
    refine heeds_counted hcall f (heeds_scheduleCompletion rfl fun p hp => ?_)
    exact absurd (congrArg some hp) (hnone p)
  | none =>
    apply (heeds_during hcall).bind
    intro answer
    cases answer with
    | error e => exact heeds_pure _
    | ok _ => exact (heeds_count f).bind fun _ => heeds_pure _

theorem heeds_send (side : Side) (msg : Message) {completion : Option Completion}
    (hnone : ∀ p, completion ≠ some (.promise p)) :
    Heeds w (Program.send side msg completion) (Program.send side msg completion) := by
  refine heeds_consult (fun a => ?_) fun _ => rfl
  cases side with
  | engine => exact composes_heeds.send fits_heeds.toReaches (a.outlet .engine) msg
  | tester =>
    exact heeds_counted_self (composes_heeds.send fits_heeds.toReaches (a.outlet .tester) msg) _
      hnone

theorem heeds_returnResult (side : Side) (result : CmdResult) {completion : Option Completion}
    (hnone : ∀ p, completion ≠ some (.promise p)) :
    Heeds w (Program.returnResult side result completion)
      (Program.returnResult side result completion) := by
  cases side with
  | engine => exact composes_heeds.returnResult fits_heeds.complete result
  | tester =>
    exact heeds_counted_self (composes_heeds.returnResult fits_heeds.complete result) _ hnone

end Sends

end Switchboard.App
