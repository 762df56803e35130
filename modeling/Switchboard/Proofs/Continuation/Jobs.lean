import Mathlib.Data.List.Basic
import Switchboard.Continuation
import Switchboard.Pending
/-!
# Jobs that deliver to one continuation

Deliveries to a continuation run as jobs, one after another, and a panic of one job does not keep
the next from running. Whatever the handler does in its calls, it gets the deliveries up to the
first terminal one and no more; then it is dropped.
-/
namespace Switchboard

variable {h σ κ ε : Type}

/-- A call of a handler: its number, the handler and what it was called with, the continuation as it
was meanwhile, and how the call ended. -/
structure HandlerCall (h : Type) where
  number : Nat
  handler : h
  outcome : Outcome
  meanwhile : Continuation h
  ended : Except Panic Unit

/-- A continuation, everything else that there is, and the calls of the handler, oldest first. -/
structure Desk (h σ : Type) where
  cell : Continuation h
  outside : σ
  calls : List (HandlerCall h) := []

/-- What a handler does in a call. It may look at everything, its continuation among it, and change
everything but that; it returns or panics. -/
abbrev Behaviour (h σ : Type) := h → Nat → Outcome → Desk h σ → Except Panic Unit × σ

/-- A call that ends as the handler makes it end, by a continuation that has counted it and that is
neither finished nor released before the end. -/
structure HandlerCall.Proper (call : HandlerCall h) (behaviour : Behaviour h σ) (handler : h) :
    Prop where
  called : call.handler = handler
  ended : ∃ desk : Desk h σ, desk.cell = call.meanwhile ∧
    call.ended = (behaviour handler call.number call.outcome desk).1
  counted : call.meanwhile.calls = call.number
  unfinished : call.meanwhile.finished = false
  kept : call.meanwhile.isReleased = false

namespace Delivery

/-- The deliveries up to the first terminal one, and that. -/
def heard : List (Delivery κ ε) → List (Delivery κ ε)
  | [] => []
  | d :: jobs => if d.terminal then [d] else d :: heard jobs

theorem heard_cons_of_terminal {d : Delivery κ ε} (hd : d.terminal = true)
    (jobs : List (Delivery κ ε)) : heard (d :: jobs) = [d] := by
  simp [heard, hd]

theorem heard_cons_of_interim {d : Delivery κ ε} (hd : d.terminal = false)
    (jobs : List (Delivery κ ε)) : heard (d :: jobs) = d :: heard jobs := by
  simp [heard, hd]

end Delivery

namespace Continuation

theorem calls_note (c : Continuation h) (visit : Visit) :
    (c.note visit).calls = c.calls + visit.isCall.toNat := by
  rw [calls, note, List.countP_append, List.countP_singleton]
  cases visit.isCall <;> rfl

theorem calls_putBack (c : Continuation h) (terminal : Bool) (handler : h) :
    (c.putBack terminal handler).calls = c.calls := by
  cases terminal with
  | true => exact calls_note _ .returned
  | false => exact calls_note _ .returned

end Continuation

namespace Desk

/-- Replaces the continuation. -/
def setCell (desk : Desk h σ) (cell : Continuation h) : Desk h σ := { desk with cell }

/-- The continuation of a desk. -/
def cellPlace : Place (StateM (Desk h σ)) (Continuation h) :=
  .part (fun desk : Desk h σ => desk.cell) setCell

/-- Calls the handler and records the call. -/
def call (behaviour : Behaviour h σ) (handler : h) (number : Nat) (outcome : Outcome) :
    StateM (Desk h σ) (Except Panic Unit) :=
  modifyGet fun desk =>
    let (ended, outside) := behaviour handler number outcome desk
    let record := { number, handler, outcome, meanwhile := desk.cell, ended }
    (ended, { desk with outside, calls := desk.calls ++ [record] })

/-- The job of a delivery. -/
def deliver (behaviour : Behaviour h σ) (d : Delivery κ ε) :
    StateM (Desk h σ) (Except Panic Unit) :=
  Continuation.resume cellPlace (call behaviour) d.outcome d.terminal

/-- Runs the jobs of deliveries in order and tells how each has ended. -/
def deliverAll (behaviour : Behaviour h σ) :
    List (Delivery κ ε) → StateM (Desk h σ) (List (Except Panic Unit))
  | [] => return []
  | d :: jobs => do
    let ended ← deliver behaviour d
    return ended :: (← deliverAll behaviour jobs)

section Steps

variable {behaviour : Behaviour h σ} {desk : Desk h σ} {handler : h}

/-- The handler waits for its next call. -/
structure Waits (desk : Desk h σ) (handler : h) : Prop where
  slot : desk.cell.slot = .waiting handler
  finished : desk.cell.finished = false

/-- The handler was dropped after its last call. -/
structure Done (desk : Desk h σ) : Prop where
  slot : desk.cell.slot = .released
  finished : desk.cell.finished = true

theorem run_cell_step {α : Type} (f : Continuation h → α × Continuation h) (desk : Desk h σ) :
    (cellPlace.step f).run desk = ((f desk.cell).1, desk.setCell (f desk.cell).2) := rfl

theorem run_deliverAll_cons (d : Delivery κ ε) (jobs : List (Delivery κ ε)) (desk : Desk h σ) :
    (deliverAll behaviour (d :: jobs)).run desk =
      (((deliver behaviour d).run desk).1 ::
        ((deliverAll behaviour jobs).run ((deliver behaviour d).run desk).2).1,
       ((deliverAll behaviour jobs).run ((deliver behaviour d).run desk).2).2) := rfl

/-- A delivery that comes too late is dropped. -/
theorem Done.run_deliver (hdone : desk.Done) (d : Delivery κ ε) :
    (deliver behaviour d).run desk =
      (.ok (), desk.setCell (desk.cell.note (.arrival d.outcome d.terminal false))) := by
  have htaken : desk.cell.takeOut d.outcome d.terminal =
      (none, desk.cell.note (.arrival d.outcome d.terminal false)) := by
    rw [Continuation.takeOut, hdone.slot]
  rw [deliver, Continuation.resume, run_bind, run_cell_step, htaken]
  rfl

/-- The continuation of a desk while the handler is called. -/
def calling (desk : Desk h σ) (d : Delivery κ ε) : Continuation h :=
  { desk.cell with slot := .running }.note (.arrival d.outcome d.terminal true)

/-- What the handler does in the call of a delivery. -/
def doing (behaviour : Behaviour h σ) (desk : Desk h σ) (handler : h) (d : Delivery κ ε) :
    Except Panic Unit × σ :=
  behaviour handler (desk.cell.calls + 1) d.outcome (desk.setCell (desk.calling d))

/-- The record of the call of a delivery. -/
def record (behaviour : Behaviour h σ) (desk : Desk h σ) (handler : h) (d : Delivery κ ε) :
    HandlerCall h where
  number := desk.cell.calls + 1
  handler := handler
  outcome := d.outcome
  meanwhile := desk.calling d
  ended := (doing behaviour desk handler d).1

/-- A desk after the call of the handler has ended, by a return or by a panic. -/
def called (behaviour : Behaviour h σ) (desk : Desk h σ) (handler : h) (d : Delivery κ ε) :
    Desk h σ where
  cell := (desk.calling d).putBack d.terminal handler
  outside := (doing behaviour desk handler d).2
  calls := desk.calls ++ [record behaviour desk handler d]

/-- A delivery calls the handler that waits, and ends in the same way as the call. -/
theorem Waits.run_deliver (hwaits : desk.Waits handler) (d : Delivery κ ε) :
    (deliver behaviour d).run desk =
      ((doing behaviour desk handler d).1, desk.called behaviour handler d) := by
  have htaken : desk.cell.takeOut d.outcome d.terminal =
      (some (handler, desk.cell.calls + 1), desk.calling d) := by
    rw [Continuation.takeOut, hwaits.slot]
    rfl
  rw [deliver, Continuation.resume, run_bind, run_cell_step, htaken]
  rfl

theorem calls_calling (desk : Desk h σ) (d : Delivery κ ε) :
    (desk.calling d).calls = desk.cell.calls + 1 := Continuation.calls_note _ _

theorem calls_called (d : Delivery κ ε) :
    (desk.called behaviour handler d).cell.calls = desk.cell.calls + 1 := by
  rw [called, Continuation.calls_putBack, calls_calling]

/-- After a terminal call the handler is dropped. -/
theorem done_called {d : Delivery κ ε} (hd : d.terminal = true) :
    (desk.called behaviour handler d).Done := by
  constructor
  · simp [called, Continuation.putBack, hd, Continuation.note]
  · simp [called, Continuation.putBack, hd, Continuation.note]

/-- After any other call the handler waits again, also if it has panicked. -/
theorem Waits.called (hwaits : desk.Waits handler) {d : Delivery κ ε} (hd : d.terminal = false) :
    (desk.called behaviour handler d).Waits handler := by
  constructor
  · simp [Desk.called, Continuation.putBack, hd, Continuation.note]
  · simp [Desk.called, Continuation.putBack, hd, Continuation.note, calling, hwaits.finished]

theorem Waits.proper (hwaits : desk.Waits handler) (d : Delivery κ ε) :
    (record behaviour desk handler d).Proper behaviour handler where
  called := rfl
  ended := ⟨desk.setCell (desk.calling d), rfl, rfl⟩
  counted := desk.calls_calling d
  unfinished := hwaits.finished
  kept := rfl

end Steps

section Runs

variable {behaviour : Behaviour h σ} {desk : Desk h σ} {handler : h}

/-- Once the handler is dropped, no job calls it, and all jobs end well. -/
theorem Done.run_deliverAll (hdone : desk.Done) (behaviour : Behaviour h σ)
    (jobs : List (Delivery κ ε)) :
    ∃ cell, (deliverAll behaviour jobs).run desk =
        (List.replicate jobs.length (.ok ()), desk.setCell cell) ∧
      (desk.setCell cell).Done ∧ cell.calls = desk.cell.calls := by
  induction jobs generalizing desk with
  | nil => exact ⟨desk.cell, rfl, hdone, rfl⟩
  | cons d jobs ih =>
    have hnoted : (desk.setCell (desk.cell.note (.arrival d.outcome d.terminal false))).Done :=
      ⟨hdone.slot, hdone.finished⟩
    obtain ⟨cell, hrun, hlast, hcalls⟩ := ih hnoted
    refine ⟨cell, ?_, hlast, ?_⟩
    · rw [run_deliverAll_cons, hdone.run_deliver, hrun]
      rfl
    · rw [hcalls]
      exact Continuation.calls_note _ _

/-- Which calls a list of jobs has made, how the jobs have ended, and what is left behind. -/
structure Answers (behaviour : Behaviour h σ) (desk : Desk h σ) (handler : h)
    (jobs : List (Delivery κ ε)) (made : List (HandlerCall h))
    (out : List (Except Panic Unit) × Desk h σ) : Prop where
  calls : out.2.calls = desk.calls ++ made
  outcomes : made.map (·.outcome) = (Delivery.heard jobs).map (·.outcome)
  numbers : made.map (·.number) = List.range' (desk.cell.calls + 1) made.length
  proper : ∀ call ∈ made, call.Proper behaviour handler
  ended : out.1 = made.map (·.ended) ++ List.replicate (jobs.length - made.length) (.ok ())
  counted : out.2.cell.calls = desk.cell.calls + made.length
  left : if jobs.any (·.terminal) then out.2.Done else out.2.Waits handler

/-- A terminal job is the last that makes a call. -/
theorem Waits.answers_of_terminal (hwaits : desk.Waits handler) {d : Delivery κ ε}
    (hd : d.terminal = true) (jobs : List (Delivery κ ε)) :
    Answers behaviour desk handler (d :: jobs) [desk.record behaviour handler d]
      ((deliverAll behaviour (d :: jobs)).run desk) := by
  have hdone : (desk.called behaviour handler d).Done := done_called hd
  obtain ⟨cell, hrun, hlast, hcalls⟩ := hdone.run_deliverAll behaviour jobs
  rw [run_deliverAll_cons, hwaits.run_deliver, hrun]
  constructor
  case calls => rfl
  case outcomes =>
    rw [Delivery.heard_cons_of_terminal hd]
    rfl
  case numbers => rfl
  case proper => simpa using hwaits.proper d
  case ended => simp [record]
  case counted => exact hcalls.trans (calls_called d)
  case left => simpa [hd] using hlast

/-- Any other job makes one call and leaves the rest to the jobs that follow. -/
theorem Waits.answers_of_interim (hwaits : desk.Waits handler) {d : Delivery κ ε}
    (hd : d.terminal = false) {jobs : List (Delivery κ ε)} {made : List (HandlerCall h)}
    (hrest : Answers behaviour (desk.called behaviour handler d) handler jobs made
      ((deliverAll behaviour jobs).run (desk.called behaviour handler d))) :
    Answers behaviour desk handler (d :: jobs) (desk.record behaviour handler d :: made)
      ((deliverAll behaviour (d :: jobs)).run desk) := by
  rw [run_deliverAll_cons, hwaits.run_deliver]
  constructor
  case calls =>
    rw [hrest.calls, Desk.called, List.append_assoc]
    rfl
  case outcomes =>
    rw [Delivery.heard_cons_of_interim hd, List.map_cons, List.map_cons, hrest.outcomes]
    rfl
  case numbers =>
    rw [List.map_cons, hrest.numbers, calls_called]
    rfl
  case proper => exact List.forall_mem_cons.mpr ⟨hwaits.proper d, hrest.proper⟩
  case ended =>
    rw [hrest.ended, List.length_cons, List.length_cons, Nat.add_sub_add_right]
    rfl
  case counted =>
    rw [hrest.counted, calls_called, List.length_cons]
    omega
  case left => simpa [hd] using hrest.left

/-- The jobs of a handler that waits make calls up to the first terminal one. -/
theorem Waits.exists_answers (hwaits : desk.Waits handler) (behaviour : Behaviour h σ)
    (jobs : List (Delivery κ ε)) :
    ∃ made, Answers behaviour desk handler jobs made ((deliverAll behaviour jobs).run desk) := by
  induction jobs generalizing desk with
  | nil =>
    have hnone : ∀ call ∈ ([] : List (HandlerCall h)), call.Proper behaviour handler := by simp
    exact ⟨[], (List.append_nil _).symm, rfl, rfl, hnone, rfl, rfl, hwaits⟩
  | cons d jobs ih =>
    cases hd : d.terminal with
    | true => exact ⟨_, hwaits.answers_of_terminal hd jobs⟩
    | false =>
      obtain ⟨made, hrest⟩ := ih (hwaits.called hd)
      exact ⟨_, hwaits.answers_of_interim hd hrest⟩

end Runs

/-- Whatever a handler does when it is called, and whether its calls return or panic: the deliveries
up to the first terminal one reach it, in order and numbered from one on, and those after that do
not. Before that delivery has ended the handler is not released and the continuation is not
finished; from then on they are, also if it has ended by a panic. The number that is told is that of
the calls, as a word. A panic comes out of the job whose call has panicked, and out of no other. -/
theorem deliverAll_new (behaviour : Behaviour h σ) (handler : h) (outside : σ)
    (jobs : List (Delivery κ ε)) :
    let out := (deliverAll behaviour jobs).run { cell := .ofHandler handler, outside }
    let heard := Delivery.heard jobs
    out.2.calls.map (·.outcome) = heard.map (·.outcome) ∧
      out.2.calls.map (·.number) = List.range' 1 heard.length ∧
      (∀ call ∈ out.2.calls, call.Proper behaviour handler) ∧
      out.1 = out.2.calls.map (·.ended) ++
        List.replicate (jobs.length - heard.length) (.ok ()) ∧
      out.2.cell.calls = heard.length ∧
      out.2.cell.deliveries = .ofNat heard.length ∧
      out.2.cell.finished = jobs.any (·.terminal) ∧
      out.2.cell.isReleased = jobs.any (·.terminal) := by
  intro out heard
  have hnew : ({ cell := .ofHandler handler, outside } : Desk h σ).Waits handler := ⟨rfl, rfl⟩
  obtain ⟨made, hmade⟩ := hnew.exists_answers behaviour jobs
  have hcalls : out.2.calls = made := hmade.calls
  have hlength : made.length = heard.length := by
    simpa using congrArg List.length hmade.outcomes
  have hcounted : out.2.cell.calls = heard.length := by
    rw [← hlength, ← Nat.zero_add made.length]
    exact hmade.counted
  rw [hcalls, ← hlength]
  refine ⟨hmade.outcomes, hmade.numbers, hmade.proper, hmade.ended, ?_, ?_, ?_⟩
  · rw [hcounted, hlength]
  · rw [Continuation.deliveries, hcounted, hlength]
  · have hleft := hmade.left
    cases hany : jobs.any (·.terminal) with
    | true =>
      have hdone : out.2.Done := by simpa [hany] using hleft
      exact ⟨hdone.finished, by rw [Continuation.isReleased, hdone.slot]⟩
    | false =>
      have hwaits : out.2.Waits handler := by simpa [hany] using hleft
      exact ⟨hwaits.finished, by rw [Continuation.isReleased, hwaits.slot]⟩

end Desk
end Switchboard
