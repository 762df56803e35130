import Switchboard.Bench.Run
import Switchboard.Proofs.Bench.Accounts
import Switchboard.Proofs.Programs
/-!
# Programs of a bench keep its accounts

Whatever scripts do, nested in each other in any way, the accounts of the bench stay sound, and
when a program has ended the same calls are in progress as before it. So a call that a program
begins has returned when the program ends, and no ending is made twice.
-/
namespace Switchboard.Bench

open World

/-- Whenever a program ends, the endings that were in hand before have become those in hand after
it, other endings in hand are as they were, and the same calls are in progress. -/
def Turns {α : Type} (p : Program α) (before : Nat → Nat) (after : α → Nat → Nat) : Prop :=
  ∀ w a w', p.run w = some (a, w') → ∀ rest : Nat → Nat, w.Sound (fun i => rest i + before i) →
    w'.Sound (fun i => rest i + after a i) ∧ Balanced w w'

/-- A program that needs nothing in hand and leaves nothing in hand. -/
def Keeps {α : Type} (p : Program α) : Prop := Turns p 0 fun _ => 0

section Composition

variable {α β : Type}

theorem run_bind_eq_some {p : Program α} {f : α → Program β} {w w' : World} {b : β}
    (h : (p >>= f).run w = some (b, w')) :
    ∃ a w₁, p.run w = some (a, w₁) ∧ (f a).run w₁ = some (b, w') := by
  rw [StateT.run_bind] at h
  obtain ⟨⟨a, w₁⟩, hp, hf⟩ := Option.bind_eq_some_iff.mp h
  exact ⟨a, w₁, hp, hf⟩

theorem Turns.pure (a : α) (hand : α → Nat → Nat) : Turns (pure a) (hand a) hand := by
  intro w b w' hrun rest hw
  obtain ⟨rfl, rfl⟩ : a = b ∧ w = w' := by simpa using hrun
  exact ⟨hw, Balanced.refl w⟩

theorem Turns.bind {p : Program α} {f : α → Program β} {before : Nat → Nat}
    {between : α → Nat → Nat} {after : β → Nat → Nat} (hp : Turns p before between)
    (hf : ∀ a, Turns (f a) (between a) after) : Turns (p >>= f) before after := by
  intro w b w' hrun rest hw
  obtain ⟨a, w₁, hp', hf'⟩ := run_bind_eq_some hrun
  obtain ⟨hw₁, hbalanced⟩ := hp w a w₁ hp' rest hw
  obtain ⟨hw', hbalanced'⟩ := hf a w₁ b w' hf' rest hw₁
  exact ⟨hw', hbalanced.trans hbalanced'⟩

/-- More may be in hand than a program needs. -/
theorem Turns.frame {p : Program α} {before : Nat → Nat} {after : α → Nat → Nat}
    (hp : Turns p before after) (more : Nat → Nat) :
    Turns p (fun i => more i + before i) fun a i => more i + after a i := by
  intro w a w' hrun rest hw
  simp only [← Nat.add_assoc] at hw ⊢
  exact hp w a w' hrun (fun i => rest i + more i) hw

theorem keeps_pure (a : α) : Keeps (pure a : Program α) := Turns.pure a fun _ => 0

theorem Keeps.bind {p : Program α} {f : α → Program β} (hp : Keeps p) (hf : ∀ a, Keeps (f a)) :
    Keeps (p >>= f) := Turns.bind hp hf

theorem composes_keeps : Composes fun α (p : Program α) => Keeps p := ⟨keeps_pure, Keeps.bind⟩

/-- A program that changes nothing that counts. -/
theorem keeps_of_same {p : Program α} (h : ∀ w a w', p.run w = some (a, w') → Same w w') :
    Keeps p := by
  intro w a w' hrun rest hw
  have hsame := h w a w' hrun
  exact ⟨hw.same hsame, hsame.balanced⟩

theorem keeps_get : Keeps (get : Program World) := by
  apply keeps_of_same
  intro w a w' hrun
  obtain ⟨-, rfl⟩ : w = a ∧ w = w' := by simpa using hrun
  exact ⟨rfl, rfl, rfl⟩

theorem keeps_modify {f : World → World} (hf : ∀ w, Same w (f w)) :
    Keeps (modify f : Program PUnit) := by
  apply keeps_of_same
  intro w a w' hrun
  obtain rfl : f w = w' := by simpa [modify] using hrun
  exact hf w

theorem keeps_emit (event : Event) : Keeps (Program.emit event) :=
  keeps_modify fun _ => ⟨rfl, rfl, rfl⟩

/-- Reading something that may not be there. -/
theorem keeps_lift (f : World → Option α) : Keeps (do f (← get) : Program α) := by
  apply keeps_of_same
  intro w a w' hrun
  obtain ⟨-, rfl⟩ : f w = some a ∧ w = w' := by
    simpa [Option.bind_eq_some_iff, and_comm] using hrun
  exact ⟨rfl, rfl, rfl⟩

end Composition

section Places

variable {α : Type}

theorem run_router_step {f : Router Nat ExecutorName Endpoint → α × Router Nat ExecutorName Endpoint}
    {w w' : World} {a : α} (h : (Program.router.step f).run w = some (a, w')) :
    a = (f w.router).1 ∧ w' = { w with router := (f w.router).2 } := by
  obtain ⟨ha, hw⟩ := Prod.mk.inj (Option.some.inj h)
  exact ⟨ha.symm, hw.symm⟩

theorem run_context_step {name : String} {f : LocalContext Job → α × LocalContext Job}
    {w w' : World} {a : α} (h : ((Program.context name).step f).run w = some (a, w')) :
    ∃ c, w.contexts.lookup name = some c ∧ a = (f c).1 ∧ w' = w.setContext name (f c).2 := by
  obtain ⟨c, hc, ha, hw⟩ : ∃ c, w.contexts.lookup name = some c ∧ (f c).1 = a ∧
      w.setContext name (f c).2 = w' := by
    simpa [Program.context, Option.bind_eq_some_iff] using h
  exact ⟨c, hc, ha.symm, hw.symm⟩

theorem run_cell_step {i : Nat} {f : Continuation Handler → α × Continuation Handler}
    {w w' : World} {a : α} (h : ((Program.cell i).step f).run w = some (a, w')) :
    ∃ c, w.cells[i]? = some c ∧ a = (f c.continuation).1 ∧
      w' = w.setCell i { c with continuation := (f c.continuation).2 } := by
  obtain ⟨c, hc, ha, hw⟩ : ∃ c, w.cells[i]? = some c ∧ (f c.continuation).1 = a ∧
      w.setCell i { c with continuation := (f c.continuation).2 } = w' := by
    simpa [Program.cell, Option.bind_eq_some_iff, setCell] using h
  exact ⟨c, hc, ha.symm, hw.symm⟩

/-- A step of the router that leaves the table as it is. -/
theorem keeps_router_step
    {f : Router Nat ExecutorName Endpoint → α × Router Nat ExecutorName Endpoint}
    (hf : ∀ r, (f r).2.table = r.table) : Keeps (Program.router.step f) := by
  apply keeps_of_same
  intro w a w' hrun
  obtain ⟨-, rfl⟩ := run_router_step hrun
  exact ⟨rfl, hf w.router, rfl⟩

theorem keeps_router_get : Keeps Program.router.get := keeps_router_step fun _ => rfl

/-- A step of a context that changes its queue by what comes to hand. -/
theorem turns_context_step (name : String) {f : LocalContext Job → α × LocalContext Job}
    {before : Nat → Nat} {after : α → Nat → Nat}
    (hf : ∀ c i, after (f c).1 i + ((f c).2.queue.map (·.endings i)).sum ≤
      before i + (c.queue.map (·.endings i)).sum) :
    Turns ((Program.context name).step f) before after := by
  intro w a w' hrun rest hw
  obtain ⟨c, hfound, rfl, rfl⟩ := run_context_step hrun
  constructor
  · apply hw.setContext hfound
    intro i
    have := hf c i
    omega
  · exact balanced_setContext w name _

/-- A step of a context that changes no queue. -/
theorem keeps_context_step (name : String) {f : LocalContext Job → α × LocalContext Job}
    (hf : ∀ c, (f c).2.queue = c.queue) : Keeps ((Program.context name).step f) :=
  turns_context_step name fun c i => Nat.le_of_eq (by rw [hf c])

/-- What is queued on a context is not in hand any more. -/
theorem turns_execute (name : String) (job : Job) :
    Turns ((Program.context name).step (·.execute job)) job.endings fun _ => 0 := by
  refine turns_context_step name fun c i => ?_
  rw [LocalContext.execute]
  split
  · simp
  · simp [Nat.add_comm]

/-- What is taken from a queue comes to hand. -/
theorem turns_next (name : String) :
    Turns ((Program.context name).step (·.next)) 0
      fun job? => (job?.map Job.endings).getD 0 := by
  refine turns_context_step name fun c i => ?_
  rw [LocalContext.next]
  cases hqueue : c.queue with
  | nil => simp [hqueue]
  | cons job jobs => simp

end Places

section Deliveries

theorem turns_submit (d : Delivery Nat ExecutorName) :
    Turns (Program.submit d) (Delivery.endings [d]) fun _ => 0 := by
  cases hexecutor : d.executor with
  | refusing =>
    rw [Program.submit, hexecutor]
    intro w a w' hrun rest hw
    obtain ⟨hsound, hbalanced⟩ := keeps_pure _ w a w' hrun rest (hw.drop fun i => by simp)
    exact ⟨hsound, hbalanced⟩
  | context name =>
    have hjob : (Job.resume d.continuation d.outcome d.terminal).endings =
        Delivery.endings [d] := by
      ext i
      simp [Job.endings, Delivery.endings, Delivery.endsFor, List.countP_cons]
    rw [Program.submit, hexecutor, ← hjob]
    exact (turns_execute name _).bind fun _ => keeps_pure _

theorem turns_submitAll (deliveries : List (Delivery Nat ExecutorName)) :
    Turns (deliveries.forM Program.submit) (Delivery.endings deliveries) fun _ => 0 := by
  induction deliveries with
  | nil => exact keeps_pure _
  | cons d deliveries ih =>
    have hsplit : Delivery.endings (d :: deliveries) =
        fun i => Delivery.endings deliveries i + Delivery.endings [d] i := by
      ext i
      simp [Delivery.endings, List.countP_cons]
    rw [hsplit]
    exact ((turns_submit d).frame (Delivery.endings deliveries)).bind fun _ => ih

/-- What the table hands out is queued or lost. -/
theorem keeps_onTable {α : Type} (run : Runner)
    {op : PendingTable Nat ExecutorName →
      α × List (Delivery Nat ExecutorName) × PendingTable Nat ExecutorName}
    (hop : ∀ t : PendingTable Nat ExecutorName, t.Sharded → t.HandsOut (op t).2.1 (op t).2.2) :
    Keeps (run.fabric.onTable op) := by
  have hstep : Turns (Program.router.step (·.onTable op)) 0 fun a => Delivery.endings a.2 := by
    intro w a w' hrun rest hw
    obtain ⟨rfl, rfl⟩ := run_router_step hrun
    have hout := hop w.router.table hw.sharded
    constructor
    · apply hw.setTable hout.sharded
      intro i
      have hwaiting := hout.waiting i
      have htaken : (op w.router.table).2.2.takenFor i = w.router.table.takenFor i := by
        rw [PendingTable.takenFor, PendingTable.takenFor, hout.taken]
      change rest i + Delivery.endings (op w.router.table).2.1 i +
        (op w.router.table).2.2.waitingFor i + w.router.table.takenFor i ≤
          rest i + 0 + w.router.table.waitingFor i + (op w.router.table).2.2.takenFor i
      omega
    · exact balanced_setRouter w _
  exact hstep.bind fun a => (turns_submitAll a.2).bind fun _ => keeps_pure a.1

end Deliveries

section Calls

/-- When a handler that was taken out has returned, its call is over, and the other calls are in
progress as before. -/
theorem sound_callOut {run : Runner}
    (hcall : ∀ handler n outcome, Keeps (run.call handler n outcome)) {i n : Nat}
    {outcome : Outcome} {terminal : Bool} {handler : Handler} {w w' : World}
    {ended : Except Panic Unit} (hrun : (Continuation.callOut (Program.cell i) run.call outcome
      terminal handler n).run w = some (ended, w')) {rest : Nat → Nat} (hw : w.Sound rest)
    (hbusy : w.stage i = .busy terminal) :
    w'.Sound rest ∧ w'.stage i = Stage.afterCall terminal ∧
      ∀ k, k ≠ i → ∀ busyWith, w.stage k = .busy busyWith ↔ w'.stage k = .busy busyWith := by
  rw [Continuation.callOut] at hrun
  obtain ⟨ended, w₁, hcalled, hrun⟩ := run_bind_eq_some hrun
  obtain ⟨hw₁, hbalanced⟩ := hcall handler n outcome w ended w₁ hcalled rest hw
  obtain ⟨u, w₂, hstep, hrun⟩ := run_bind_eq_some hrun
  obtain ⟨c, hfound, -, rfl⟩ := run_cell_step hstep
  obtain ⟨-, rfl⟩ := Prod.mk.inj (Option.some.inj hrun)
  -- the call that was begun is still in progress when its handler returns
  have hstill : c.continuation.stage = .busy terminal := by
    have hstage : w₁.stage i = c.continuation.stage :=
      congrArg Stage.after (history_of_getElem? hfound)
    rw [← hstage]
    exact (hbalanced i terminal).mp hbusy
  obtain ⟨hfaithful, hends, hafter⟩ := (hw₁.faithful i c hfound).putBack hstill handler
  refine ⟨hw₁.setCell hfound hfaithful (fun k _ => Nat.le_refl _) ?_, ?_, fun k hk busyWith => ?_⟩
  · exact Nat.add_le_add_left (Nat.le_of_eq hends) _
  · rw [stage_setCell hfound, if_pos rfl]
    exact hafter
  · rw [stage_setCell hfound, if_neg (Ne.symm hk)]
    exact hbalanced k busyWith

/-- A delivery that arrives calls the handler and waits for it to return, or is dropped. -/
theorem turns_resume {run : Runner}
    (hcall : ∀ handler n outcome, Keeps (run.call handler n outcome)) (i : Nat)
    (outcome : Outcome) (terminal : Bool) :
    Turns (Continuation.resume (Program.cell i) run.call outcome terminal)
      (Job.resume i outcome terminal).endings fun _ => 0 := by
  intro w a w' hrun rest hw
  rw [Continuation.resume] at hrun
  obtain ⟨taken, w₁, hstep, hrun⟩ := run_bind_eq_some hrun
  obtain ⟨c, hfound, rfl, rfl⟩ := run_cell_step hstep
  obtain ⟨hfaithful, hends, hstage⟩ := (hw.faithful i c hfound).takeOut outcome terminal
  have hw₁ : (w.setCell i { c with
      continuation := (c.continuation.takeOut outcome terminal).2 }).Sound rest := by
    refine hw.setCell hfound hfaithful (fun k _ => Nat.le_add_right _ _) ?_
    change _ + (c.continuation.takeOut outcome terminal).2.ends ≤ _
    rw [hends]
    simp [Job.endings]
    omega
  have hstage₁ (k : Nat) := stage_setCell hfound
    { c with continuation := (c.continuation.takeOut outcome terminal).2 } k
  have hstage₀ : w.stage i = c.continuation.stage :=
    congrArg Stage.after (history_of_getElem? hfound)
  set w₁ := w.setCell i { c with continuation := (c.continuation.takeOut outcome terminal).2 }
  cases htaken : (c.continuation.takeOut outcome terminal).1 with
  | none =>
    rw [htaken] at hrun hstage
    obtain ⟨-, rfl⟩ := Prod.mk.inj (Option.some.inj hrun)
    constructor
    · exact hw₁
    · intro k busyWith
      rw [hstage₁]
      split
      · next heq => rw [← heq, hstage₀, hstage.2]
      · rfl
  | some call =>
    obtain ⟨handler, n⟩ := call
    rw [htaken] at hrun hstage
    have hbegun : w₁.stage i = .busy terminal := by rw [hstage₁, if_pos rfl, hstage.2]
    obtain ⟨hsound, hover, hothers⟩ := sound_callOut hcall hrun hw₁ hbegun
    constructor
    · exact hsound
    · intro k busyWith
      by_cases hk : k = i
      · rw [hk, hstage₀, hstage.1, hover]
        cases terminal <;> exact iff_of_false nofun nofun
      · rw [← hothers k hk busyWith, hstage₁, if_neg (Ne.symm hk)]

theorem keeps_call {run : Runner} (hrun : ∀ owner steps, Keeps (run owner steps))
    (handler : Handler) (n : Nat) (outcome : Outcome) : Keeps (run.call handler n outcome) := by
  cases handler with
  | none => exact keeps_pure _
  | some script =>
    exact (keeps_emit _).bind fun _ => (hrun _ _).bind fun _ => keeps_pure _

theorem turns_job {run : Runner} (hrun : ∀ owner steps, Keeps (run owner steps)) (job : Job) :
    Turns (run.job job) job.endings fun _ => 0 := by
  cases job with
  | script tag steps panics =>
    exact (keeps_emit _).bind fun _ => (hrun _ _).bind fun _ => keeps_pure _
  | arrival loc msg =>
    exact (keeps_modify (f := (·.deposit loc msg)) fun _ => ⟨rfl, rfl, rfl⟩).bind fun _ =>
      keeps_pure _
  | resume cell outcome terminal => exact turns_resume (keeps_call hrun) cell outcome terminal

theorem keeps_runJobs {run : Runner} (hrun : ∀ owner steps, Keeps (run owner steps))
    (name : String) (ran max : Nat) :
    Keeps (LocalContext.runJobs (Program.context name) run.job ran max) := by
  induction max generalizing ran with
  | zero => exact keeps_pure _
  | succ max ih =>
    refine (turns_next name).bind fun job? => ?_
    cases job? with
    | none => exact keeps_pure _
    | some job =>
      apply (turns_job hrun job).bind
      intro ended
      cases ended with
      | error panic => exact keeps_pure _
      | ok _ => exact ih (ran + 1)

theorem keeps_pump {run : Runner} (hrun : ∀ owner steps, Keeps (run owner steps)) (name : String)
    (max : Nat) : Keeps (LocalContext.pump (Program.context name) run.job max) :=
  (keeps_context_step name fun _ => rfl).bind fun _ => (keeps_runJobs hrun name 0 max).bind fun _ =>
    (keeps_context_step name fun _ => rfl).bind fun _ => keeps_pure _

end Calls

section Steps

variable {run : Runner}

theorem keeps_forward (hrun : ∀ owner steps, Keeps (run owner steps)) (endpoint : Endpoint)
    (msg : Message) : Keeps (run.forward endpoint msg) := by
  cases endpoint with
  | queued loc name => exact turns_execute name (.arrival loc msg)
  | direct loc discard steps refuse =>
    have hsteps (answer : Except Fault Unit) :=
      (hrun "deliver" steps).bind fun _ => keeps_pure answer
    have hdeposit := keeps_modify (f := (·.deposit loc msg)) fun _ => ⟨rfl, rfl, rfl⟩
    cases discard with
    | true => cases refuse <;> exact hsteps _
    | false => cases refuse <;> exact hdeposit.bind fun _ => hsteps _

/-- A step of the router in which the table owes what it takes. -/
theorem keeps_router_table {α : Type}
    {f : Router Nat ExecutorName Endpoint → α × Router Nat ExecutorName Endpoint}
    (hf : ∀ r, r.table.Sharded → (f r).2.table.Sharded ∧ ∀ i,
      (f r).2.table.waitingFor i + r.table.takenFor i =
        r.table.waitingFor i + (f r).2.table.takenFor i) :
    Keeps (Program.router.step f) := by
  intro w a w' hstep rest hw
  obtain ⟨-, rfl⟩ := run_router_step hstep
  obtain ⟨hsharded, hwaiting⟩ := hf w.router hw.sharded
  constructor
  · apply hw.setTable hsharded
    intro i
    have := hwaiting i
    change rest i + 0 + (f w.router).2.table.waitingFor i + w.router.table.takenFor i ≤
      rest i + 0 + w.router.table.waitingFor i + (f w.router).2.table.takenFor i
    omega
  · exact balanced_setRouter w _

theorem fits_fabric (hrun : ∀ owner steps, Keeps (run owner steps)) :
    Composes.Fits (fun α (p : Program α) => Keeps p) run.fabric where
  get := keeps_router_get
  complete id result := keeps_onTable run fun _ ht => ht.handsOut_complete id result
  fail id fault := keeps_onTable run fun _ ht => ht.handsOut_fail id fault
  forward endpoint msg := keeps_forward hrun endpoint msg

theorem keeps_cellOf (name : String) : Keeps (Program.cellOf name) :=
  keeps_lift fun w => w.names.lookup name

theorem keeps_outletOf (name : String) : Keeps (Program.outletOf name) :=
  keeps_lift fun w => w.outlets.lookup name

theorem keeps_resultOf (spec : ResultSpec) : Keeps (Program.resultOf spec) :=
  keeps_lift fun w => w.result? spec

/-- Nothing has happened yet at a new continuation. -/
theorem keeps_addCell (name : String) (handler : Handler) :
    Keeps (Program.addCell name handler) := by
  intro w a w' hrun rest hw
  obtain rfl := (Prod.mk.inj (Option.some.inj hrun)).2
  have hhistory (k : Nat) := history_addCell w handler handler.isSome k
  constructor
  · constructor
    · exact hw.sharded
    · exact hw.names
    · intro i cell hfound
      change (w.cells.push _)[i]? = some cell at hfound
      rw [Array.getElem?_push] at hfound
      split at hfound
      · obtain rfl := Option.some.inj hfound
        exact Continuation.faithful_ofHandler handler
      · exact hw.faithful i cell hfound
    · intro i
      have hendings := hw.endings i
      rw [endingsFor, arrivedFor, ← hhistory] at hendings
      exact hendings
  · intro k busyWith
    rw [stage, ← hhistory]
    rfl

theorem keeps_cell_get (i : Nat) : Keeps (Program.cell i).get := by
  intro w a w' hrun rest hw
  obtain ⟨c, hfound, -, rfl⟩ := run_cell_step hrun
  refine ⟨hw.setCell hfound (hw.faithful i c hfound) (fun _ _ => Nat.le_refl _) (Nat.le_refl _),
    fun k busyWith => ?_⟩
  rw [stage_setCell hfound]
  split
  · next heq =>
    rw [← heq, stage, history_of_getElem? hfound]
    rfl
  · rfl

theorem table_addRoute (r : Router Nat ExecutorName Endpoint) (loc : Loc) (endpoint : Endpoint) :
    (r.addRoute loc endpoint).2.table = r.table := by
  rw [Router.addRoute]
  split <;> rfl

/-- Whatever a step does, the accounts stay sound. -/
theorem keeps_perform (hrun : ∀ owner steps, Keeps (run owner steps)) (step : Step) :
    Keeps (run.perform step) := by
  have hfits := fits_fabric hrun
  cases step with
  | execute context tag steps panics =>
    exact Turns.bind (turns_execute context (.script tag steps panics)) fun _ => keeps_pure _
  | pump context max => exact (keeps_pump hrun context max).bind fun _ => keeps_pure _
  | closeContext context =>
    exact (keeps_context_step context fun _ => rfl).bind fun _ => keeps_pure _
  | context context => exact (keeps_context_step context fun _ => rfl).bind fun _ => keeps_pure _
  | cont name on panicOn => exact (keeps_addCell _ _).bind fun _ => keeps_pure _
  | noopCont name => exact (keeps_addCell _ _).bind fun _ => keeps_pure _
  | contState name =>
    refine (keeps_cellOf name).bind fun i => (keeps_cell_get i).bind fun c => ?_
    exact (keeps_get.bind fun _ => keeps_pure _).bind fun _ => keeps_pure _
  | nextId =>
    refine (keeps_router_table fun _ hr => ⟨hr.allocate, fun _ => rfl⟩).bind fun _ => keeps_pure _
  | register id cont streaming executor =>
    refine (keeps_cellOf cont).bind fun continuation => Keeps.bind ?_ fun _ => keeps_pure _
    exact keeps_router_table fun r hr =>
      ⟨(hr.register id _).1, hr.waitingFor_register id _⟩
  | complete id result =>
    exact (keeps_resultOf result).bind fun result => (hfits.complete id result).bind fun _ =>
      keeps_pure _
  | fail id fault => exact (hfits.fail id fault).bind fun _ => keeps_pure _
  | cancelAll reason =>
    refine Keeps.bind ?_ fun _ => keeps_pure _
    exact keeps_onTable run fun t _ => t.handsOut_cancelAll reason
  | contains id => exact keeps_router_get.bind fun _ => keeps_pure _
  | table => exact keeps_router_get.bind fun _ => keeps_pure _
  | refusing => exact keeps_pure _
  | routeQueued loc context =>
    exact (keeps_router_step fun r => table_addRoute r loc _).bind fun _ => keeps_pure _
  | routeDirect loc discard steps refuse =>
    exact (keeps_router_step fun r => table_addRoute r loc _).bind fun _ => keeps_pure _
  | hasRoute loc => exact keeps_router_get.bind fun _ => keeps_pure _
  | isClosed => exact keeps_router_get.bind fun _ => keeps_pure _
  | close =>
    exact (keeps_router_step fun _ => rfl).bind fun _ => keeps_router_get.bind fun _ =>
      keeps_pure _
  | clearRoutes =>
    exact (keeps_router_step fun _ => rfl).bind fun _ => keeps_router_get.bind fun _ =>
      keeps_pure _
  | outlet name src defaultDest executor =>
    refine Keeps.bind (keeps_modify fun _ => ?_) fun _ => keeps_pure _
    exact ⟨rfl, rfl, rfl⟩
  | sendCmd outlet cmd cont streaming =>
    refine (keeps_outletOf outlet).bind fun p => (keeps_cellOf cont).bind fun continuation => ?_
    refine (composes_keeps.sendCmd hfits p cmd ?_).bind fun _ => keeps_pure _
    exact keeps_router_table fun _ hr =>
      ⟨(hr.allocate.register _ _).1, hr.allocate.waitingFor_register _ _⟩
  | send outlet msg =>
    apply (keeps_outletOf outlet).bind
    intro p
    exact (composes_keeps.send hfits.toReaches p msg).bind fun _ => keeps_pure _
  | returnResult outlet result =>
    refine (keeps_outletOf outlet).bind fun _ => (keeps_resultOf result).bind fun result => ?_
    exact (composes_keeps.returnResult hfits.complete result).bind fun _ => keeps_pure _
  | inbox loc start => exact keeps_get.bind fun _ => keeps_pure _

end Steps

/-- Scripts keep the accounts sound, however deep they run within scripts. -/
theorem keeps_runScript (depth : Nat) (owner : String) (steps : List Step) :
    Keeps (runScript depth owner steps) := by
  induction depth generalizing owner steps with
  | zero =>
    cases steps with
    | nil => exact keeps_pure _
    | cons step steps => exact fun w a w' hrun => nomatch hrun
  | succ depth ih =>
    cases steps with
    | nil => exact keeps_pure _
    | cons step steps =>
      refine composes_keeps.forM (fun step => ?_) _
      exact (keeps_perform ih step).bind fun _ => keeps_emit _

end Switchboard.Bench
