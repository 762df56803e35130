import Switchboard.App.Run
import Switchboard.Proofs.App.Callbacks
/-!
# Tasks of the workers keep the accounts of an application

A worker takes its oldest task, runs it to its end, and only then takes the next one. So whenever
a delivery arrives at a continuation, no call of the handler is in progress there, and the ending
that was in the queue has arrived when the call has returned.
-/
namespace Switchboard.App

/-- No call of a handler is in progress. -/
def Quiet (a : App) : Prop := ∀ i busyWith, a.stage i ≠ .busy busyWith

/-- What a program leaves behind that has brought the endings in hand to their continuations. -/
structure Serves (a a' : App) : Prop where
  sound : a'.Sound 0
  quiet : a'.Quiet
  persists : Persists a a'

theorem Serves.trans {a b c : App} (h : Serves a b) (h' : Serves b c) : Serves a c :=
  ⟨h'.sound, h'.quiet, h.persists.trans h'.persists⟩

theorem Calm.quiet {a a' : App} (h : Calm a a') (hquiet : a.Quiet) : a'.Quiet := by
  intro i busyWith
  rw [h.stage]
  exact hquiet i busyWith

theorem Keeps.serves {α : Type} {p : Program α} (hp : Keeps p) {a : App} (ha : a.Sound 0)
    (hquiet : a.Quiet) : Serves a (p.run a).2 := by
  obtain ⟨hsound, hcalm⟩ := hp a 0 ha
  exact ⟨hsound, hcalm.quiet hquiet, hcalm.persists⟩

section Cells

/-- Replaces the continuation of a number. -/
def setCell (a : App) (i : Nat) (c : Continuation Handler) : App :=
  { a with cells := a.cells.setIfInBounds i c }

variable {a : App} {i : Nat} {c : Continuation Handler}

theorem lt_size_of_getElem? (hfound : a.cells[i]? = some c) : i < a.cells.size := by
  rcases Nat.lt_or_ge i a.cells.size with hlt | hge
  · exact hlt
  · rw [Array.getElem?_eq_none hge] at hfound
    cases hfound

theorem history_setCell (hfound : a.cells[i]? = some c) (c' : Continuation Handler) (k : Nat) :
    (a.setCell i c').history k = if i = k then c'.history else a.history k := by
  have hlt := lt_size_of_getElem? hfound
  rw [history, setCell, Array.getElem?_setIfInBounds]
  split
  · rfl
  · rfl

theorem stage_setCell (hfound : a.cells[i]? = some c) (c' : Continuation Handler) (k : Nat) :
    (a.setCell i c').stage k = if i = k then c'.stage else a.stage k := by
  rw [stage, history_setCell hfound]
  split
  · rfl
  · rfl

theorem Quiet.of_getElem? (hquiet : a.Quiet) (hfound : a.cells[i]? = some c) (busyWith : Bool) :
    c.stage ≠ .busy busyWith := by
  intro hbusy
  apply hquiet i busyWith
  rw [stage, history_of_getElem? hfound]
  exact hbusy

theorem persists_setCell (a : App) (i : Nat) (c : Continuation Handler) :
    Persists a (a.setCell i c) := by
  refine persists_of_cells rfl (fun _ => rfl) ?_ rfl rfl
  change a.cells.size ≤ (a.cells.setIfInBounds i c).size
  exact Nat.le_of_eq Array.size_setIfInBounds.symm

/-- A change of one continuation alone, by which its endings arrive. -/
theorem Sound.setCell {hand hand' : Nat → Nat} (ha : a.Sound hand)
    (hfound : a.cells[i]? = some c) {c' : Continuation Handler} (horderly : c'.Orderly)
    (hother : ∀ k, k ≠ i → hand' k = hand k) (hends : hand' i + c'.ends = hand i + c.ends) :
    (a.setCell i c').Sound hand' where
  sharded := ha.sharded
  orderly k d hd := by
    change (a.cells.setIfInBounds i c')[k]? = some d at hd
    rw [Array.getElem?_setIfInBounds] at hd
    split at hd
    · rw [if_pos (lt_size_of_getElem? hfound)] at hd
      obtain rfl := Option.some.inj hd
      exact horderly
    · exact ha.orderly k d hd
  honest := ha.honest
  endings k := by
    have hold := ha.endings k
    rw [endingsFor] at hold
    change hand' k + (a.router.table.waitingFor k + queuedIn a.testerWorker.queue k +
      queuedIn a.engineWorker.queue k + ((a.setCell i c').history k).countP Visit.isEnd) =
        a.router.table.takenFor k
    rw [history_setCell hfound]
    split
    · next heq =>
      subst heq
      rw [history_of_getElem? hfound] at hold
      rw [Continuation.ends, Continuation.ends] at hends
      omega
    · next hne =>
      rw [hother k (Ne.symm hne)]
      exact hold
  inRange k hk := Nat.lt_of_lt_of_le (ha.inRange k hk) (persists_setCell a i c').cells
  once := ha.once
  sent := ha.sent
  shut := ha.shut

/-- A delivery that finds no handler leaves everything where it is. -/
theorem slot_takeOut_of_none {c : Continuation Handler} {outcome : Outcome} {terminal : Bool}
    (h : (c.takeOut outcome terminal).1 = none) : (c.takeOut outcome terminal).2.slot = c.slot := by
  obtain ⟨slot, finished, history⟩ := c
  cases slot with
  | waiting handler => cases h
  | running => rfl
  | released => rfl

theorem getElem?_setCell_self {k : Nat} {d : Continuation Handler} (h : a.cells[k]? = some d)
    (c : Continuation Handler) : (a.setCell k c).cells[k]? = some c := by
  rw [setCell, Array.getElem?_setIfInBounds, if_pos rfl, if_pos (lt_size_of_getElem? h)]

theorem getElem?_setCell_of_ne {k j : Nat} (h : k ≠ j) (c : Continuation Handler) :
    (a.setCell k c).cells[j]? = a.cells[j]? := by
  rw [setCell, Array.getElem?_setIfInBounds, if_neg h]

theorem run_cell_step {α : Type} (k : Nat) (f : Continuation Handler → α × Continuation Handler)
    (a : App) :
    ((Program.cell k).step f).run a =
      ((f (a.cells.getD k { slot := .released })).1,
        a.setCell k (f (a.cells.getD k { slot := .released })).2) := rfl

theorem getElem?_of_slot {k : Nat} {handler : Handler}
    (h : (a.cells.getD k { slot := .released }).slot = .waiting handler) :
    a.cells[k]? = some (a.cells.getD k { slot := .released }) := by
  rw [Array.getD_eq_getD_getElem?] at h ⊢
  cases hfound : a.cells[k]? with
  | none =>
    rw [hfound] at h
    cases h
  | some c => rfl

/-- A delivery for a continuation that is not there ends nothing and does nothing. -/
theorem setCell_of_size_le (hsize : a.cells.size ≤ i) (c : Continuation Handler) :
    a.setCell i c = a := by
  rw [setCell, Array.setIfInBounds_eq_of_size_le hsize]

/-- A delivery finds the handler waiting and takes it out, or it is dropped. -/
theorem takeOut_cases (c : Continuation Handler) (outcome : Outcome) (terminal : Bool) :
    (∃ handler n, c.slot = .waiting handler ∧
      (c.takeOut outcome terminal).1 = some (handler, n) ∧
      (c.takeOut outcome terminal).2.history = c.history ++ [.arrival outcome terminal true]) ∨
    (c.takeOut outcome terminal).1 = none ∧
      (c.takeOut outcome terminal).2.history = c.history ++ [.arrival outcome terminal false] := by
  rw [Continuation.takeOut]
  cases c.slot with
  | waiting handler => exact Or.inl ⟨handler, _, rfl, rfl, rfl⟩
  | running => exact Or.inr ⟨rfl, rfl⟩
  | released => exact Or.inr ⟨rfl, rfl⟩

/-- No handler waits where a delivery has just arrived. -/
theorem slot_takeOut (c : Continuation Handler) (outcome : Outcome) (terminal : Bool)
    (handler : Handler) : (c.takeOut outcome terminal).2.slot ≠ .waiting handler := by
  intro hwaits
  rw [Continuation.takeOut] at hwaits
  cases hslot : c.slot with
  | waiting other =>
    rw [hslot] at hwaits
    cases hwaits
  | running =>
    rw [hslot] at hwaits
    cases hslot.symm.trans hwaits
  | released =>
    rw [hslot] at hwaits
    cases hslot.symm.trans hwaits

/-- Only the handler that was called can wait after the call. -/
theorem slot_putBack {c : Continuation Handler} {terminal : Bool} {handler other : Handler}
    (h : (c.putBack terminal handler).slot = .waiting other) : other = handler := by
  cases terminal with
  | true => cases h
  | false =>
    cases h
    rfl

end Cells

section Deliveries

variable {a : App} {i : Nat} {outcome : Outcome} {terminal : Bool}

/-- A terminal delivery finds its continuation: a request was taken for it. -/
theorem Sound.not_terminal (ha : a.Sound (endingsOf (.job (.resume i outcome terminal))))
    (hsize : a.cells.size ≤ i) : terminal = false := by
  by_contra hterminal
  have hending := ha.endings i
  dsimp only [endingsOf] at hending
  rw [if_pos ⟨Bool.not_eq_false _ ▸ hterminal, rfl⟩] at hending
  have htaken : 0 < a.router.table.taken.count i := by
    rw [PendingTable.takenFor] at hending
    omega
  exact Nat.not_lt.mpr hsize (ha.inRange i (List.count_pos_iff.mp htaken))

/-- An ending that was in hand arrives at its continuation. -/
theorem Sound.takeOut (ha : a.Sound (endingsOf (.job (.resume i outcome terminal))))
    (hterminal : terminal = outcome.isTerminal) {c : Continuation Handler}
    (hfound : a.cells[i]? = some c) (hidle : ∀ busyWith, c.stage ≠ .busy busyWith) :
    (a.setCell i (c.takeOut outcome terminal).2).Sound 0 := by
  have horderly := ha.orderly i c hfound
  obtain ⟨-, hends, -⟩ := horderly.faithful.takeOut outcome terminal
  refine ha.setCell hfound (horderly.takeOut hidle outcome hterminal) (fun k hk => ?_) ?_
  · simp [endingsOf, Ne.symm hk]
  · rw [hends]
    simp [endingsOf, Nat.add_comm]

/-- A call that returns ends nothing that has not arrived before. -/
theorem Sound.putBack {hand : Nat → Nat} (ha : a.Sound hand) {c : Continuation Handler}
    (hfound : a.cells[i]? = some c) (hbusy : c.stage = .busy terminal) (handler : Handler) :
    (a.setCell i (c.putBack terminal handler)).Sound hand := by
  have horderly := ha.orderly i c hfound
  obtain ⟨-, hends, -⟩ := horderly.faithful.putBack hbusy handler
  apply ha.setCell hfound (horderly.putBack hbusy handler) fun _ _ => rfl
  exact congrArg (hand i + ·) hends

/-- The handler may do anything; when it has returned, no call is in progress any more. -/
theorem Sound.callOut (ha : a.Sound 0) (hbusy : a.stage i = .busy terminal)
    (hothers : ∀ k, k ≠ i → ∀ busyWith, a.stage k ≠ .busy busyWith) (handler : Handler) (n : Nat)
    (outcome : Outcome) :
    Serves a ((Continuation.callOut (Program.cell i) Program.callHandler outcome terminal handler
      n).run a).2 := by
  obtain ⟨hcalled, hcalm⟩ := keeps_callHandler handler n outcome a 0 ha
  have hrun : ((Continuation.callOut (Program.cell i) Program.callHandler outcome terminal handler
      n).run a).2 = ((Program.callHandler handler n outcome).run a).2.setCell i
        ((((Program.callHandler handler n outcome).run a).2.cells.getD i
          { slot := .released }).putBack terminal handler) := rfl
  rw [hrun, Array.getD_eq_getD_getElem?]
  set b := ((Program.callHandler handler n outcome).run a).2
  have hstage : b.stage i = .busy terminal := (hcalm.stage i).trans hbusy
  cases hfound : b.cells[i]? with
  | none =>
    -- nothing has happened at a continuation that is not there
    rw [stage, history, hfound] at hstage
    cases hstage
  | some c =>
    rw [stage, history_of_getElem? hfound] at hstage
    obtain ⟨-, -, hafter⟩ := (hcalled.orderly i c hfound).faithful.putBack hstage handler
    constructor
    · exact hcalled.putBack hfound hstage handler
    · intro k busyWith
      rw [stage_setCell hfound]
      split
      · change (c.putBack terminal handler).stage ≠ _
        rw [hafter]
        cases terminal <;> simp [Stage.afterCall]
      · next hne =>
        rw [hcalm.stage]
        exact hothers k (Ne.symm hne) busyWith
    · exact hcalm.persists.trans (persists_setCell b i _)

/-- The delivery of an outcome brings its ending to the continuation. It calls the handler and
waits for it to return, or it is dropped. -/
theorem Sound.resume (ha : a.Sound (endingsOf (.job (.resume i outcome terminal))))
    (hquiet : a.Quiet) (hterminal : terminal = outcome.isTerminal) :
    Serves a
      ((Continuation.resume (Program.cell i) Program.callHandler outcome terminal).run a).2 := by
  have hstep (b : App) {α : Type} (f : Continuation Handler → α × Continuation Handler) :
      ((Program.cell i).step f).run b = ((f (b.cells.getD i { slot := .released })).1,
        b.setCell i (f (b.cells.getD i { slot := .released })).2) := rfl
  rw [Continuation.resume, run_bind, hstep, Array.getD_eq_getD_getElem?]
  cases hfound : a.cells[i]? with
  | none =>
    have hsize : a.cells.size ≤ i := Array.getElem?_eq_none_iff.mp hfound
    obtain rfl := ha.not_terminal hsize
    have hnone : endingsOf (.job (.resume i outcome false)) = 0 := by
      ext k
      simp [endingsOf]
    rw [hnone] at ha
    change Serves a (a.setCell i _)
    rw [setCell_of_size_le hsize]
    exact ⟨ha, hquiet, .refl a⟩
  | some c =>
    have hidle := hquiet.of_getElem? hfound
    obtain ⟨-, -, hstage⟩ := (ha.orderly i c hfound).faithful.takeOut outcome terminal
    have harrived := ha.takeOut hterminal hfound hidle
    have hstages (k : Nat) := stage_setCell hfound (c.takeOut outcome terminal).2 k
    have hpersists := persists_setCell a i (c.takeOut outcome terminal).2
    dsimp only [Option.getD_some]
    set b := a.setCell i (c.takeOut outcome terminal).2
    cases htaken : (c.takeOut outcome terminal).1 with
    | none =>
      rw [htaken] at hstage
      constructor
      · exact harrived
      · intro k busyWith
        change b.stage k ≠ _
        rw [hstages]
        split
        · rw [hstage.2]
          exact hidle busyWith
        · exact hquiet k busyWith
      · exact hpersists
    | some call =>
      obtain ⟨handler, n⟩ := call
      rw [htaken] at hstage
      have hbusy : b.stage i = .busy terminal := by rw [hstages, if_pos rfl, hstage.2]
      have hothers (k : Nat) (hk : k ≠ i) (busyWith : Bool) : b.stage k ≠ .busy busyWith := by
        rw [hstages, if_neg (Ne.symm hk)]
        exact hquiet k busyWith
      obtain ⟨hsound, hquiet', hpersists'⟩ := harrived.callOut hbusy hothers handler n outcome
      exact ⟨hsound, hquiet', hpersists.trans hpersists'⟩

end Deliveries

section Tasks

variable {a : App}

/-- Whatever a job does, the ending that it may be has arrived when it is over. -/
theorem Sound.runJob {job : Job} (ha : a.Sound (endingsOf (.job job))) (hquiet : a.Quiet)
    (hhonest : HonestTask (.job job)) (side : Side) :
    Serves a ((Program.runJob side job).run a).2 := by
  cases job with
  | resume i outcome terminal => exact ha.resume hquiet hhonest
  | arrival msg => exact (operates_runJob side rfl).keeps.serves ha hquiet
  | initExtension properties => exact (operates_runJob side rfl).keeps.serves ha hquiet
  | startExtension => exact (operates_runJob side rfl).keeps.serves ha hquiet
  | phase callback => exact (operates_runJob side rfl).keeps.serves ha hquiet
  | completion completion => exact (operates_runJob side rfl).keeps.serves ha hquiet

/-- The application after a worker has taken its oldest task. -/
def popped (a : App) (side : Side) : App := a.setWorker side (a.worker side).next.2

/-- The endings that a task is, if there is one. -/
def endingsOf? : Option (Task Job) → Nat → Nat
  | none => 0
  | some task => endingsOf task

theorem Sound.popped (ha : a.Sound 0) (side : Side) :
    (a.popped side).Sound (endingsOf? (a.worker side).next.1) := by
  have hqueue := ha.honest side
  have hshut := ha.shut side
  rw [App.popped, Worker.next]
  cases htasks : (a.worker side).queue with
  | nil =>
    rw [htasks] at hqueue
    refine ha.setWorker side ?_ (fun i => rfl) hshut
    rw [htasks]
    exact hqueue
  | cons task tasks =>
    rw [htasks] at hqueue
    refine ha.setWorker side (fun other hother => ?_) (fun i => ?_) hshut
    · exact hqueue other (List.mem_cons_of_mem task hother)
    · rw [htasks, queuedIn_cons]
      exact (Nat.zero_add _).symm

theorem Quiet.popped (hquiet : a.Quiet) (side : Side) : (a.popped side).Quiet := by
  intro i busyWith
  rw [stage, App.popped, history_setWorker]
  exact hquiet i busyWith

/-- A worker runs its oldest task, and the accounts are sound again. -/
theorem Sound.advance (ha : a.Sound 0) (hquiet : a.Quiet) (side : Side) :
    Serves (a.popped side) ((Program.advance side).run a).2 := by
  have hpopped := ha.popped side
  have hquiet' := hquiet.popped side
  have hhonest := ha.honest side
  have hrun : ((Program.worker side).step Worker.next).run a =
      ((a.worker side).next.1, a.popped side) := rfl
  rw [Program.advance, run_bind, hrun]
  cases htasks : (a.worker side).queue with
  | nil =>
    have hnext : (a.worker side).next.1 = none := by rw [Worker.next, htasks]
    rw [hnext] at hpopped ⊢
    exact ⟨hpopped, hquiet', .refl _⟩
  | cons task tasks =>
    have hnext : (a.worker side).next.1 = some task := by rw [Worker.next, htasks]
    rw [hnext] at hpopped ⊢
    rw [htasks] at hhonest
    cases task with
    | mark =>
      have hmark := (keeps_countTask side (.ok ())).bind fun _ => keeps_pure true
      exact hmark.serves hpopped hquiet'
    | job job =>
      have hran := hpopped.runJob hquiet' (hhonest _ List.mem_cons_self) side
      have hcount := (keeps_countTask side ((Program.runJob side job).run (a.popped side)).1).bind
        fun _ => keeps_pure true
      exact hran.trans (hcount.serves hran.sound hran.quiet)

end Tasks

end Switchboard.App
