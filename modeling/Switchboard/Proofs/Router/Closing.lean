import Switchboard.Proofs.Router.Conduct
/-!
# Closed routers

Whatever is done to an exchange is done in strokes: an id is asked for, a request is asked to wait,
requests are answered, failed or cancelled, endpoints come and go, the router is closed. Sends,
results and endpoints that use the router are made of nothing else.

No stroke opens a router again. While it is closed nothing is sent, but the requests that were
waiting notice nothing: they wait for the same results, faults and cancellations as they would if the
router were open and nobody sent anything.
-/
namespace Switchboard

variable {κ ε η : Type}

/-- What is done to an exchange at once. -/
inductive Stroke (κ ε η : Type) where
  /-- the next number is given out -/
  | tick
  | allocate
  /-- a request is asked to wait, if the router is open -/
  | accept (request : PendingRequest (κ × Nat) ε)
  /-- a request is asked to wait by somebody who has the table -/
  | register (id : RequestId) (request : PendingRequest (κ × Nat) ε)
  | complete (id : RequestId) (result : CmdResult)
  | fail (id : RequestId) (fault : Fault)
  | cancelAll (reason : String)
  | addRoute (loc : Loc) (endpoint : η)
  | close
  | clearRoutes

namespace Stroke

/-- Whether a stroke closes the router. -/
def closes : Stroke κ ε η → Bool
  | close | clearRoutes => true
  | tick | allocate | accept _ | register .. | complete .. | fail .. | cancelAll _ | addRoute .. =>
    false

/-- Whether a stroke is part of a send. -/
def sends : Stroke κ ε η → Bool
  | accept _ => true
  | tick | allocate | register .. | complete .. | fail .. | cancelAll _ | addRoute .. | close
  | clearRoutes => false

/-- The outcome by which a stroke ends the request that waits under an id. -/
def ending? (id : RequestId) : Stroke κ ε η → Option Outcome
  | complete other result => if other = id ∧ result.isFinal = true then some (.ok result) else none
  | fail other fault => if other = id then some (.error fault) else none
  | cancelAll reason => some (.error (.cancelled reason))
  | tick | allocate | accept _ | register .. | addRoute .. | close | clearRoutes => none

end Stroke

namespace Exchange

/-- An exchange after a stroke. -/
def stroked (x : Exchange κ ε η) : Stroke κ ε η → Exchange κ ε η
  | .tick => (tick.run x).2
  | .allocate => (allocate.run x).2
  | .accept request =>
    match x.router.ensureOpen with
    | .error _ => x
    | .ok () => x.enroll request
  | .register id request =>
    { x with router := { x.router with table := (x.router.table.register id request).2 } }
  | .complete id result => ((desk.complete id result).run x).2
  | .fail id fault => ((desk.fail id fault).run x).2
  | .cancelAll reason => ((desk.cancelAll reason).run x).2
  | .addRoute loc endpoint => ((desk.router.step (·.addRoute loc endpoint)).run x).2
  | .close => ((desk.router.modify Router.close).run x).2
  | .clearRoutes => ((desk.router.modify Router.clearRoutes).run x).2

section Strokes

variable {deliver : η → Message → Program κ ε η (Except Fault Unit)}

/-- A program that does nothing but strokes. -/
def InStrokes (α : Type) (p : Program κ ε η α) : Prop :=
  ∀ x, ∃ strokes : List (Stroke κ ε η), (p.run x).2 = strokes.foldl stroked x

theorem composes_inStrokes : Composes (m := Program κ ε η) InStrokes where
  pure _ _ := ⟨[], rfl⟩
  bind {α β p f} hp hf x := by
    obtain ⟨strokes, hstrokes⟩ := hp x
    obtain ⟨more, hmore⟩ := hf (p.run x).1 (p.run x).2
    refine ⟨strokes ++ more, ?_⟩
    rw [List.foldl_append, ← hstrokes, ← hmore]
    rfl

theorem inStrokes_of_stroke {α : Type} {p : Program κ ε η α} (s : Stroke κ ε η)
    (h : ∀ x, (p.run x).2 = x.stroked s) : InStrokes α p := fun x => ⟨[s], h x⟩

theorem fits_inStrokes (hdeliver : ∀ endpoint msg, InStrokes _ (deliver endpoint msg)) :
    Composes.Fits InStrokes (fabric deliver) where
  get _ := ⟨[], rfl⟩
  complete id result := inStrokes_of_stroke (.complete id result) fun _ => rfl
  fail id fault := inStrokes_of_stroke (.fail id fault) fun _ => rfl
  forward := hdeliver

theorem inStrokes_conclude (id : RequestId) (forwarded : Except Fault Unit × Exchange κ ε η) :
    ∃ strokes : List (Stroke κ ε η), conclude id forwarded = strokes.foldl stroked forwarded.2 := by
  obtain ⟨verdict, x⟩ := forwarded
  cases verdict with
  | ok _ => exact ⟨[], rfl⟩
  | error e => exact ⟨[.fail id e], rfl⟩

/-- A command that is sent is a request that is asked to wait, then what the endpoint does, then
perhaps a fault. -/
theorem inStrokes_sendCmd (hdeliver : ∀ endpoint msg, InStrokes _ (deliver endpoint msg))
    (p : Outlet ε) (cmd : Cmd) (c : κ × Nat) (streaming : Bool) :
    InStrokes _ (p.sendCmd (fabric deliver) cmd c streaming) := by
  intro x
  cases hclosed : x.router.closed with
  | true =>
    refine ⟨[], ?_⟩
    rw [Fabric.run_sendCmd_of_closed _ run_get hclosed]
    rfl
  | false =>
    have haccept (request : PendingRequest (κ × Nat) ε) :
        x.stroked (.accept request) = x.enroll request := by
      rw [stroked, Router.ensureOpen, hclosed]
      rfl
    rcases run_sendCmd deliver p cmd c streaming x with ⟨e, hrun⟩ | ⟨e, -, hrun⟩ | ⟨id, -, hrun⟩
    · exact ⟨[], congrArg Prod.snd hrun⟩
    · refine ⟨[.accept ⟨c, p.executor, streaming⟩], (congrArg Prod.snd hrun).trans ?_⟩
      exact (haccept _).symm
    · set enrolled := x.enroll ⟨c, p.executor, streaming⟩
      obtain ⟨strokes, hforwarded⟩ := composes_inStrokes.forwardTo
        (fits_inStrokes hdeliver).toReaches (p.destination cmd.dest)
        (.cmd (cmd.stamped id p.src (p.destination cmd.dest))) enrolled
      obtain ⟨last, hconcluded⟩ := inStrokes_conclude id (forwarding deliver p cmd id enrolled)
      refine ⟨.accept ⟨c, p.executor, streaming⟩ :: (strokes ++ last), ?_⟩
      rw [List.foldl_cons, haccept, List.foldl_append, ← hforwarded]
      exact (congrArg Prod.snd hrun).trans hconcluded

end Strokes

end Exchange

/-- Whatever an endpoint does is done in strokes. -/
theorem Conduct.inStrokes (conduct : Conduct κ ε η) : Exchange.InStrokes _ conduct.run := by
  have hK : Composes (m := Exchange.Program κ ε η) Exchange.InStrokes :=
    Exchange.composes_inStrokes
  have hdesk : Composes.Fits (m := Exchange.Program κ ε η) (κ := κ × Nat) (ε := ε) (η := η)
      Exchange.InStrokes Exchange.desk := Exchange.fits_inStrokes fun _ _ => hK.pure _
  have hone {α : Type} {p : Exchange.Program κ ε η α} (s : Stroke κ ε η)
      (h : ∀ x, (p.run x).2 = x.stroked s) := Exchange.inStrokes_of_stroke s h
  induction conduct with
  | answer verdict => exact hK.pure verdict
  | look next ih => exact hK.bind hdesk.get ih
  | allocate next ih => exact hK.bind (hone .allocate fun _ => rfl) ih
  | complete id result next ih => exact hK.bind (hdesk.complete id result) ih
  | fail id fault next ih => exact hK.bind (hdesk.fail id fault) ih
  | cancelAll reason next ih => exact hK.bind (hone (.cancelAll reason) fun _ => rfl) ih
  | returnResult result next ih => exact hK.bind (hK.returnResult hdesk.complete result) ih
  | addRoute loc endpoint next ih => exact hK.bind (hone (.addRoute loc endpoint) fun _ => rfl) ih
  | close next ih => exact hK.bind (hone .close fun _ => rfl) fun _ => ih
  | clearRoutes next ih => exact hK.bind (hone .clearRoutes fun _ => rfl) fun _ => ih
  | sendCmd p cmd continuation streaming deliver next ihdeliver ih =>
    refine hK.bind (hK.bind (hone .tick fun _ => rfl) fun n => ?_) ih
    exact Exchange.inStrokes_sendCmd ihdeliver p cmd (continuation, n) streaming
  | send p msg deliver next ihdeliver ih =>
    exact hK.bind (hK.send (Exchange.fits_inStrokes ihdeliver).toReaches p msg) ih

namespace Exchange

section Closed

variable {x : Exchange κ ε η}

/-- No stroke opens a router. -/
theorem closed_stroked (h : x.router.closed = true) (s : Stroke κ ε η) :
    (x.stroked s).router.closed = true := by
  cases s with
  | accept request =>
    rw [stroked, Router.ensureOpen, if_pos h]
    exact h
  | complete id result =>
    rw [stroked, Fabric.complete, desk, run_onTable]
    exact h
  | fail id fault =>
    rw [stroked, Fabric.fail, desk, run_onTable]
    exact h
  | cancelAll reason =>
    rw [stroked, Fabric.cancelAll, desk, run_onTable]
    exact h
  | addRoute loc endpoint =>
    change (x.router.addRoute loc endpoint).2.closed = true
    rw [Router.addRoute]
    split
    · exact h
    · exact h
  | tick | allocate | register id request => exact h
  | close | clearRoutes => rfl

theorem closed_foldl (h : x.router.closed = true) (strokes : List (Stroke κ ε η)) :
    (strokes.foldl stroked x).router.closed = true := by
  induction strokes generalizing x with
  | nil => exact h
  | cons s strokes ih => exact ih (closed_stroked h s)

/-- Closing concerns neither the table nor what was handed out. -/
theorem stroked_of_closes {s : Stroke κ ε η} (h : s.closes = true) :
    ∃ routes, x.stroked s = { x with router := { x.router with routes, closed := true } } := by
  cases s with
  | close => exact ⟨x.router.routes, rfl⟩
  | clearRoutes => exact ⟨[], rfl⟩
  | tick | allocate | accept | register | complete | fail | cancelAll | addRoute => cases h

end Closed

section Waiting

variable {x : Exchange κ ε η} {id : RequestId} {request : PendingRequest (κ × Nat) ε}

theorem sharded_stroked (h : x.router.table.Sharded) (s : Stroke κ ε η) :
    (x.stroked s).router.table.Sharded := by
  classical
  cases s with
  | tick => exact h
  | allocate => exact h.allocate
  | accept request =>
    rw [stroked]
    split
    · exact h
    · rcases Router.accept_cases h request with ⟨id, -, haccepts⟩ | ⟨e, -, htable⟩
      · exact haccepts.sharded
      · rw [enroll, htable]
        exact h.allocate
  | register id request => exact (h.register id request).1
  | complete id result =>
    rw [stroked, Fabric.complete, desk, run_onTable]
    exact (h.serves_complete id result).handsOut.sharded
  | fail id fault =>
    rw [stroked, Fabric.fail, desk, run_onTable]
    exact (h.serves_fail id fault).handsOut.sharded
  | cancelAll reason =>
    rw [stroked, Fabric.cancelAll, desk, run_onTable]
    exact PendingTable.sharded_cancelAll _ reason
  | addRoute loc endpoint =>
    change (x.router.addRoute loc endpoint).2.table.Sharded
    rw [Router.addRoute]
    split
    · exact h
    · exact h
  | close => exact h
  | clearRoutes => exact h

theorem sharded_foldl (h : x.router.table.Sharded) (strokes : List (Stroke κ ε η)) :
    (strokes.foldl stroked x).router.table.Sharded := by
  induction strokes generalizing x with
  | nil => exact h
  | cons s strokes ih => exact ih (sharded_stroked h s)

/-- Where one more request waits all others wait on. -/
theorem find?_of_perm {t t' : PendingTable (κ × Nat) ε} (h : t.Sharded) (h' : t'.Sharded)
    {e : RequestId × PendingRequest (κ × Nat) ε} (hperm : t'.entries.Perm (e :: t.entries))
    (hwaits : t.find? id = some request) : t'.find? id = some request := by
  rw [h'.find?_eq_some_iff, hperm.mem_iff]
  exact List.mem_cons_of_mem _ ((h.find?_eq_some_iff id request).mp hwaits)

/-- A request waits on unless a stroke ends it. -/
theorem find?_stroked (h : x.router.table.Sharded)
    (hwaits : x.router.table.find? id = some request) {s : Stroke κ ε η}
    (hs : s.ending? id = none) : (x.stroked s).router.table.find? id = some request := by
  cases s with
  | tick => exact hwaits
  | allocate => exact hwaits
  | accept other =>
    rw [stroked]
    split
    · exact hwaits
    · rcases Router.accept_cases h other with ⟨id', -, haccepts⟩ | ⟨e, -, htable⟩
      · exact find?_of_perm h haccepts.sharded haccepts.entries hwaits
      · rw [enroll, htable]
        exact hwaits
  | register id' other =>
    change (x.router.table.register id' other).2.find? id = _
    rcases h.register_cases id' other with ⟨e, hrefused⟩ | ⟨t, htaken, hsharded, hperm, -⟩
    · rw [hrefused]
      exact hwaits
    · rw [htaken]
      exact find?_of_perm h hsharded hperm hwaits
  | complete id' result =>
    rw [stroked, Fabric.complete, desk, run_onTable]
    rw [Stroke.ending?, ite_eq_right_iff] at hs
    have hother : ¬(id = id' ∧ result.isFinal = true) := by
      rintro ⟨rfl, hfinal⟩
      cases hs ⟨rfl, hfinal⟩
    exact (h.find?_complete id' id result).trans ((if_neg hother).trans hwaits)
  | fail id' fault =>
    rw [stroked, Fabric.fail, desk, run_onTable]
    rw [Stroke.ending?, ite_eq_right_iff] at hs
    have hother : id ≠ id' := by
      rintro rfl
      cases hs rfl
    exact (h.find?_fail id' id fault).trans ((if_neg hother).trans hwaits)
  | cancelAll reason => cases hs
  | addRoute loc endpoint =>
    change (x.router.addRoute loc endpoint).2.table.find? id = _
    rw [Router.addRoute]
    split
    · exact hwaits
    · exact hwaits
  | close => exact hwaits
  | clearRoutes => exact hwaits

/-- A request waits as long as nothing ends it. -/
theorem find?_foldl (h : x.router.table.Sharded)
    (hwaits : x.router.table.find? id = some request) {strokes : List (Stroke κ ε η)}
    (hstrokes : ∀ s ∈ strokes, s.ending? id = none) :
    (strokes.foldl stroked x).router.table.find? id = some request := by
  induction strokes generalizing x with
  | nil => exact hwaits
  | cons s strokes ih =>
    obtain ⟨hs, hstrokes⟩ := List.forall_mem_cons.mp hstrokes
    exact ih (sharded_stroked h s) (find?_stroked h hwaits hs) hstrokes

/-- A stroke that ends a request takes it out and hands its ending out. -/
theorem stroked_of_ending (h : x.router.table.Sharded)
    (hwaits : x.router.table.find? id = some request) {s : Stroke κ ε η} {outcome : Outcome}
    (hs : s.ending? id = some outcome) :
    (x.stroked s).router.table.find? id = none ∧ ∃ handed,
      (x.stroked s).queued = x.queued ++ handed ∧ request.deliver id outcome true ∈ handed := by
  cases s with
  | complete id' result =>
    rw [stroked, Fabric.complete, desk, run_onTable]
    rw [Stroke.ending?, Option.ite_none_right_eq_some, Option.some.injEq] at hs
    obtain ⟨⟨rfl, hfinal⟩, rfl⟩ := hs
    refine ⟨(h.find?_complete _ _ result).trans (if_pos ⟨rfl, hfinal⟩), _, rfl, ?_⟩
    rw [PendingTable.complete_of_final hwaits hfinal]
    exact List.mem_singleton_self _
  | fail id' fault =>
    rw [stroked, Fabric.fail, desk, run_onTable]
    rw [Stroke.ending?, Option.ite_none_right_eq_some, Option.some.injEq] at hs
    obtain ⟨rfl, rfl⟩ := hs
    refine ⟨(h.find?_fail _ _ fault).trans (if_pos rfl), _, rfl, ?_⟩
    rw [PendingTable.fail_of_some hwaits]
    exact List.mem_singleton_self _
  | cancelAll reason =>
    rw [stroked, Fabric.cancelAll, desk, run_onTable]
    cases hs
    refine ⟨PendingTable.find?_cancelAll _ reason id, _, rfl, ?_⟩
    have hmem := (h.find?_eq_some_iff id request).mp hwaits
    exact List.mem_map_of_mem ((x.router.table.pending_perm.mem_iff).mpr hmem)
  | tick | allocate | accept | register | addRoute | close | clearRoutes => cases hs

/-- A result is delivered to the request that waits for it, unless it is not final and the request
wants no others. -/
theorem run_returnResult_of_waiting (hwaits : x.router.table.find? id = some request)
    {result : CmdResult} (hvalid : result.validate = .ok ()) (hid : result.requestId = some id) :
    (desk.returnResult result).run x = (.ok (),
      { x with
        router := { x.router with table := (x.router.table.complete id result).2.2 }
        queued := x.queued ++ if result.isFinal || request.streaming then
          [request.deliver id (.ok result) result.isFinal] else [] }) := by
  have hhanded : (x.router.table.complete id result).2.1 =
      if result.isFinal || request.streaming then
        [request.deliver id (.ok result) result.isFinal] else [] := by
    cases hfinal : result.isFinal with
    | true =>
      rw [PendingTable.complete_of_final hwaits hfinal]
      rfl
    | false =>
      rw [PendingTable.complete_of_interim hwaits hfinal]
      rfl
  rw [Fabric.returnResult, hvalid, hid, ← hhanded]
  change (Except.ok (), ((desk.onTable (·.complete id result)).run x).2) = _
  rw [desk, run_onTable]

end Waiting

/-- Both exchanges have the same table, have handed out the same and go on with the same number. -/
structure Alike (x y : Exchange κ ε η) : Prop where
  table : x.router.table = y.router.table
  queued : x.queued = y.queued
  serial : x.serial = y.serial

section Alike

variable {x y : Exchange κ ε η}

/-- Whether a router is closed matters to sends only. -/
theorem Alike.after (h : x.Alike y) {s : Stroke κ ε η} (hs : s.sends = false) :
    (x.stroked s).Alike (y.stroked s) := by
  obtain ⟨htable, hqueued, hserial⟩ := h
  cases s with
  | accept request => cases hs
  | tick => exact ⟨htable, hqueued, congrArg (· + 1) hserial⟩
  | allocate =>
    refine ⟨?_, hqueued, congrArg (· + 1) hserial⟩
    change x.router.table.allocate.2 = y.router.table.allocate.2
    rw [htable]
  | register id request =>
    refine ⟨?_, hqueued, hserial⟩
    change (x.router.table.register id request).2 = (y.router.table.register id request).2
    rw [htable]
  | complete id result | fail id fault | cancelAll reason =>
    simp only [stroked, Fabric.complete, Fabric.fail, Fabric.cancelAll, desk, run_onTable]
    rw [htable, hqueued]
    exact ⟨rfl, rfl, hserial⟩
  | addRoute loc endpoint =>
    have hsame (z : Exchange κ ε η) : (z.stroked (.addRoute loc endpoint)).Alike z := by
      refine ⟨?_, rfl, rfl⟩
      change (z.router.addRoute loc endpoint).2.table = _
      rw [Router.addRoute]
      split
      · rfl
      · rfl
    obtain ⟨htable', hqueued', hserial'⟩ := hsame x
    obtain ⟨htable'', hqueued'', hserial''⟩ := hsame y
    exact ⟨htable'.trans (htable.trans htable''.symm), hqueued'.trans (hqueued.trans hqueued''.symm),
      hserial'.trans (hserial.trans hserial''.symm)⟩
  | close => exact ⟨htable, hqueued, hserial⟩
  | clearRoutes => exact ⟨htable, hqueued, hserial⟩

/-- While a router is closed, the requests fare as if nobody sent anything. -/
theorem Alike.foldl (h : x.Alike y) (hclosed : x.router.closed = true)
    (strokes : List (Stroke κ ε η)) :
    (strokes.foldl stroked x).Alike ((strokes.filter (!·.sends)).foldl stroked y) := by
  induction strokes generalizing x y with
  | nil => exact h
  | cons s strokes ih =>
    cases hs : s.sends with
    | false =>
      rw [List.filter_cons_of_pos (by simp [hs])]
      exact ih (h.after hs) (closed_stroked hclosed s)
    | true =>
      rw [List.filter_cons_of_neg (by simp [hs])]
      cases s with
      | accept request =>
        have hrefused : x.stroked (.accept request) = x := by
          rw [stroked, Router.ensureOpen, if_pos hclosed]
        rw [List.foldl_cons, hrefused]
        exact ih h hclosed
      | tick | allocate | register | complete | fail | cancelAll | addRoute | close | clearRoutes =>
        cases hs

end Alike

/-- What an exchange has come to that was closed amid its run: it was `shut` at once, and some strokes
followed. -/
structure StaysClosed (amid shut : Exchange κ ε η) (after : List (Stroke κ ε η))
    (x : Exchange κ ε η) : Prop where
  closed : x.router.closed = true
  /-- every command is refused, and nothing at all happens -/
  sendCmd : ∀ (deliver : η → Message → Program κ ε η (Except Fault Unit)) (p : Outlet ε) (cmd : Cmd)
    (c : κ × Nat) (streaming : Bool),
    (p.sendCmd (fabric deliver) cmd c streaming).run x = (.error cmd.refusal, x)
  /-- every message is refused, and nothing at all happens -/
  send : ∀ (deliver : η → Message → Program κ ε η (Except Fault Unit)) (p : Outlet ε)
    (msg : Message), (p.send (fabric deliver) msg).run x = (.error msg.refusal, x)
  /-- a request that nothing has ended waits, and results are delivered to it -/
  waits : ∀ id request, amid.router.table.find? id = some request →
    (∀ s ∈ after, s.ending? id = none) → x.router.table.find? id = some request ∧
    ∀ result : CmdResult, result.validate = .ok () → result.requestId = some id →
      (desk.returnResult result).run x = (.ok (),
        { x with
          router := { x.router with table := (x.router.table.complete id result).2.2 }
          queued := x.queued ++ if result.isFinal || request.streaming then
            [request.deliver id (.ok result) result.isFinal] else [] })
  /-- a request waits up to the first stroke that ends it, and is taken out and told by that one -/
  ends : ∀ id request, amid.router.table.find? id = some request → ∀ earlier s later outcome,
    after = earlier ++ s :: later → (∀ s ∈ earlier, s.ending? id = none) →
    s.ending? id = some outcome →
    let sooner := earlier.foldl stroked shut
    sooner.router.table.find? id = some request ∧
      (sooner.stroked s).router.table.find? id = none ∧ ∃ handed,
        (sooner.stroked s).queued = sooner.queued ++ handed ∧
          request.deliver id outcome true ∈ handed
  /-- requests fare as if the router were open and nobody sent anything -/
  alike : x.Alike ((after.filter (!·.sends)).foldl stroked amid)

/-- A router that was closed amid a run stays closed, and the requests that were waiting notice
nothing. -/
theorem staysClosed {amid : Exchange κ ε η} (h : amid.router.table.Sharded) {closing : Stroke κ ε η}
    (hcloses : closing.closes = true) (after : List (Stroke κ ε η)) :
    StaysClosed amid (amid.stroked closing) after (after.foldl stroked (amid.stroked closing)) := by
  obtain ⟨routes, hshut⟩ := stroked_of_closes (x := amid) hcloses
  set shut := amid.stroked closing
  have hclosed : shut.router.closed = true := by rw [hshut]
  have htable : shut.router.table = amid.router.table := by rw [hshut]
  have hsharded : shut.router.table.Sharded := htable.symm ▸ h
  have hlater := closed_foldl hclosed after
  refine ⟨hlater, fun deliver => Fabric.run_sendCmd_of_closed _ run_get hlater,
    fun deliver => Fabric.run_send_of_closed _ run_get hlater, ?_, ?_, ?_⟩
  · intro id request hwaits hafter
    rw [← htable] at hwaits
    have hstill := find?_foldl hsharded hwaits hafter
    exact ⟨hstill, fun result => run_returnResult_of_waiting hstill⟩
  · intro id request hwaits earlier s later outcome _ hearlier hs
    rw [← htable] at hwaits
    have hstill := find?_foldl hsharded hwaits hearlier
    exact ⟨hstill, stroked_of_ending (sharded_foldl hsharded earlier) hstill hs⟩
  · have halike : shut.Alike amid := by
      rw [hshut]
      exact ⟨rfl, rfl, rfl⟩
    exact halike.foldl hclosed after

end Exchange
end Switchboard
