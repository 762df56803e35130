import Switchboard.Proofs.App.Watches
/-!
# What becomes of what is watched

A promise, a continuation or the table of an application changes. As long as it is not the promise
or the continuation that is watched, the application goes on beside another one as before; and what
is handed out to the continuation that is watched is queued, or it is lost and the promise with it.
-/
namespace Switchboard.App

variable {w : Watch} {hand : Nat} {a b : App}

section Promises

/-- The application with other promises. -/
def withPromises (a : App) (promises : Array Promise) : App := { a with promises }

/-- Promises have changed, and the one that is watched as it may. -/
theorem Watched.withPromises {hand' : Nat} (ha : Watched w hand a) {promises : Array Promise}
    (hsize : a.promises.size ≤ promises.size)
    (hfits : w.fits (hand' + w.owed a) (w.held (a.withPromises promises)))
    (hrefused : w.held (a.withPromises promises) = some .lost → a.testerWorker.accepting = false) :
    Watched w hand' (a.withPromises promises) :=
  { ha with
    tasks := fun side task htask => (ha.tasks side task htask).mono (Nat.le_refl _) hsize
    handlers := fun i c p hfound hslot => Nat.lt_of_lt_of_le (ha.handlers i c p hfound hslot) hsize
    promises := Nat.le_trans ha.promises hsize
    fits := hfits
    refused := hrefused }

/-- Nobody looks at the promises of the second application. -/
theorem Beside.withPromises {hand' : Nat} (h : Beside w hand a b) {promises : Array Promise}
    (ha : Watched w hand' (a.withPromises promises)) (promises' : Array Promise) :
    Beside w hand' (a.withPromises promises) (b.withPromises promises') where
  watched := ha
  same := h.same
  queues := h.queues
  cells := h.cells

theorem held_settled {i : Nat} (hi : w.promise ≠ some i) (a : App) (p : Promise) :
    w.held (a.withPromises (a.promises.setIfInBounds i p)) = w.held a := by
  rw [Watch.held, Watch.held]
  cases hwatched : w.promise with
  | none => rfl
  | some j =>
    have hne : i ≠ j := fun heq => hi (hwatched.trans (congrArg some heq.symm))
    exact Array.getElem?_setIfInBounds_ne hne

/-- Another promise is settled. -/
theorem Watched.settle (ha : Watched w hand a) {i : Nat} (hi : w.promise ≠ some i) (p : Promise) :
    Watched w hand (a.withPromises (a.promises.setIfInBounds i p)) := by
  apply ha.withPromises
  · exact Nat.le_of_eq Array.size_setIfInBounds.symm
  · rw [held_settled hi]
    exact ha.fits
  · rw [held_settled hi]
    exact ha.refused

end Promises

section Continuations

/-- The application with other continuations. -/
def withCells (a : App) (cells : Array (Continuation Handler)) : App := { a with cells }

theorem getElem?_push_ofHandler {handler : Handler} {i : Nat} {c : Continuation Handler}
    (h : (a.cells.push (.ofHandler handler))[i]? = some c) :
    i = a.cells.size ∧ c = .ofHandler handler ∨ a.cells[i]? = some c := by
  rw [Array.getElem?_push] at h
  split at h
  · next heq => exact .inl ⟨heq, (Option.some.inj h).symm⟩
  · exact .inr h

/-- Somebody who keeps another promise, or none, waits at a new continuation. -/
theorem Watched.push (ha : Watched w hand a) {handler : Handler} (hadmits : w.Admits handler) :
    Watched w hand (a.withCells (a.cells.push (.ofHandler handler))) := by
  have hsize : a.cells.size ≤ (a.cells.push (.ofHandler handler)).size := by
    rw [Array.size_push]
    exact Nat.le_succ _
  refine { ha with
    entries := fun e he => Nat.lt_of_lt_of_le (ha.entries e he) hsize
    tasks := fun side task htask => (ha.tasks side task htask).mono hsize (Nat.le_refl _)
    cells := Nat.le_trans ha.cells hsize
    handlers := fun i c p hfound hslot => ?_
    cell := fun k c hcell => ?_
    sole := fun i c p hp hfound hslot => ?_ }
  · rcases getElem?_push_ofHandler hfound with ⟨-, rfl⟩ | hfound
    · have heq : handler = .promise p := HandlerSlot.waiting.inj hslot
      exact Nat.lt_of_lt_of_le (hadmits p heq).1 ha.promises
    · exact ha.handlers i c p hfound hslot
  · have hfound := ha.cell k c hcell
    change (a.cells.push (.ofHandler handler))[k]? = some c
    rw [Array.getElem?_push, if_neg (Nat.ne_of_lt (lt_size_of_getElem? hfound)), hfound]
  · rcases getElem?_push_ofHandler hfound with ⟨-, rfl⟩ | hfound
    · have heq : handler = .promise p := HandlerSlot.waiting.inj hslot
      exact absurd hp (hadmits p heq).2
    · exact ha.sole i c p hp hfound hslot

/-- The number of the continuation that is watched is not that of a new one. -/
theorem Watched.number_ne_size (ha : Watched w hand a) : w.number ≠ some a.cells.size := by
  intro hnumber
  obtain ⟨⟨k, c⟩, hcell, hk⟩ := Option.map_eq_some_iff.mp hnumber
  have hlt := lt_size_of_getElem? (ha.cell k c hcell)
  exact Nat.lt_irrefl _ (hk ▸ hlt)

theorem veil_of_ne {i : Nat} (h : w.number ≠ some i) : w.veil i = Handler.masked := if_neg h

/-- New continuations in both applications. -/
theorem Beside.push (h : Beside w hand a b) {handler handler' : Handler}
    (hmasked : handler.masked = handler'.masked) (hadmits : w.Admits handler) :
    Beside w hand (a.withCells (a.cells.push (.ofHandler handler)))
      (b.withCells (b.cells.push (.ofHandler handler'))) where
  watched := h.watched.push hadmits
  same := h.same
  queues := h.queues
  cells i := by
    change (a.cells.push _)[i]?.map _ = (b.cells.push _)[i]?.map _
    rw [Array.getElem?_push, Array.getElem?_push, ← h.size]
    split
    · next heq =>
      rw [veil_of_ne (heq ▸ h.watched.number_ne_size)]
      change some ((Continuation.ofHandler handler).map Handler.masked) =
        some ((Continuation.ofHandler handler').map Handler.masked)
      rw [Continuation.map, Continuation.map, Continuation.ofHandler, Continuation.ofHandler,
        HandlerSlot.map, HandlerSlot.map, hmasked]
    · exact h.cells i

/-- Another continuation has changed, and nobody waits there who keeps the promise. -/
theorem Watched.setCell (ha : Watched w hand a) {i : Nat} (hi : w.number ≠ some i)
    {c : Continuation Handler}
    (hslot : ∀ p, c.slot = .waiting (.promise p) → p < a.promises.size ∧ w.promise ≠ some p) :
    Watched w hand (a.setCell i c) := by
  have hfound {j : Nat} {d : Continuation Handler} (h : (a.setCell i c).cells[j]? = some d) :
      d = c ∨ a.cells[j]? = some d := by
    by_cases heq : i = j
    · subst heq
      have hlt := lt_size_of_getElem? h
      rw [App.setCell, Array.size_setIfInBounds] at hlt
      rw [getElem?_setCell_self (Array.getElem?_eq_getElem hlt)] at h
      exact .inl (Option.some.inj h).symm
    · rw [getElem?_setCell_of_ne heq] at h
      exact .inr h
  have hsize : (a.setCell i c).cells.size = a.cells.size := Array.size_setIfInBounds
  refine { ha with
    entries := fun e he => hsize ▸ ha.entries e he
    tasks := fun side task htask => hsize ▸ ha.tasks side task htask
    cells := hsize ▸ ha.cells
    handlers := fun j d p hd hwaits => ?_
    cell := fun k d hcell => ?_
    sole := fun j d p hp hd hwaits => ?_ }
  · rcases hfound hd with rfl | hd
    · exact (hslot p hwaits).1
    · exact ha.handlers j d p hd hwaits
  · have hne : i ≠ k := by
      rintro rfl
      exact hi (by rw [Watch.number, hcell]; rfl)
    rw [getElem?_setCell_of_ne hne]
    exact ha.cell k d hcell
  · rcases hfound hd with rfl | hd
    · exact absurd hp (hslot p hwaits).2
    · exact ha.sole j d p hp hd hwaits

/-- Another continuation has changed in both applications. -/
theorem Beside.setCell (h : Beside w hand a b) {i : Nat} (hi : w.number ≠ some i)
    {c c' : Continuation Handler} (hmap : c.map Handler.masked = c'.map Handler.masked)
    (hslot : ∀ p, c.slot = .waiting (.promise p) → p < a.promises.size ∧ w.promise ≠ some p) :
    Beside w hand (a.setCell i c) (b.setCell i c') where
  watched := h.watched.setCell hi hslot
  same := h.same
  queues := h.queues
  cells j := by
    change (a.cells.setIfInBounds i c)[j]?.map _ = (b.cells.setIfInBounds i c')[j]?.map _
    rw [Array.getElem?_setIfInBounds, Array.getElem?_setIfInBounds, ← h.size]
    by_cases heq : i = j
    · subst heq
      rw [if_pos rfl, if_pos rfl, veil_of_ne hi]
      split
      · exact congrArg some hmap
      · rfl
    · rw [if_neg heq, if_neg heq]
      exact h.cells j

theorem Beside.getD_cells (h : Beside w hand a b) {i : Nat} (hi : w.number ≠ some i) :
    (a.cells.getD i { slot := .released }).map Handler.masked =
      (b.cells.getD i { slot := .released }).map Handler.masked := by
  have hcells := h.cells i
  rw [veil_of_ne hi] at hcells
  rw [Array.getD_eq_getD_getElem?, Array.getD_eq_getD_getElem?]
  cases ha : a.cells[i]? with
  | none =>
    rw [ha] at hcells
    rw [Option.map_eq_none_iff.mp hcells.symm]
  | some c =>
    rw [ha] at hcells
    obtain ⟨d, hd, heq⟩ := Option.map_eq_some_iff.mp hcells.symm
    rw [hd]
    exact heq.symm

/-- A delivery arrives at another continuation: in both applications it takes a handler out, with
the same number, or finds none. -/
theorem Beside.takeOut (h : Beside w hand a b) {i : Nat} (hi : w.number ≠ some i)
    (outcome : Outcome) (terminal : Bool) :
    let c := a.cells.getD i { slot := .released }
    let d := b.cells.getD i { slot := .released }
    Beside w hand (a.setCell i (c.takeOut outcome terminal).2)
        (b.setCell i (d.takeOut outcome terminal).2) ∧
      ((c.takeOut outcome terminal).1 = none ∧ (d.takeOut outcome terminal).1 = none ∨
        ∃ handler handler' n, (c.takeOut outcome terminal).1 = some (handler, n) ∧
          (d.takeOut outcome terminal).1 = some (handler', n) ∧
          handler.masked = handler'.masked ∧
          ∀ p, handler = .promise p → p < a.promises.size ∧ w.promise ≠ some p) := by
  intro c d
  have htaken := Continuation.takeOut_map Handler.masked outcome terminal c
  have htaken' := Continuation.takeOut_map Handler.masked outcome terminal d
  rw [h.getD_cells hi, htaken'] at htaken
  obtain ⟨hhandler, hcell⟩ := Prod.mk.inj htaken
  constructor
  · refine h.setCell hi hcell.symm fun p hslot => ?_
    exact absurd hslot (slot_takeOut c outcome terminal _)
  · rcases takeOut_cases c outcome terminal with ⟨handler, n, hslot, hout, -⟩ | ⟨hout, -⟩
    · rw [hout] at hhandler
      obtain ⟨⟨handler', n'⟩, hout', heq⟩ := Option.map_eq_some_iff.mp hhandler
      obtain ⟨hmasked, rfl⟩ := Prod.mk.inj heq
      refine .inr ⟨handler, handler', n', hout, hout', hmasked.symm, fun p hp => ?_⟩
      rw [hp] at hslot
      have hfound := getElem?_of_slot hslot
      refine ⟨h.watched.handlers i c p hfound hslot, fun hwatched => hi ?_⟩
      exact h.watched.sole i c p hwatched hfound hslot
    · rw [hout] at hhandler
      exact .inl ⟨hout, Option.map_eq_none_iff.mp hhandler⟩

/-- The call of a handler has ended at another continuation. -/
theorem Beside.putBack (h : Beside w hand a b) {i : Nat} (hi : w.number ≠ some i)
    {handler handler' : Handler} (hmasked : handler.masked = handler'.masked)
    (hadmits : w.Admits handler) (terminal : Bool) :
    Beside w hand
      (a.setCell i ((a.cells.getD i { slot := .released }).putBack terminal handler))
      (b.setCell i ((b.cells.getD i { slot := .released }).putBack terminal handler')) := by
  refine h.setCell hi ?_ fun p hslot => ?_
  · rw [← Continuation.putBack_map, ← Continuation.putBack_map, h.getD_cells hi, hmasked]
  · obtain ⟨hlt, hne⟩ := hadmits p (slot_putBack hslot).symm
    exact ⟨Nat.lt_of_lt_of_le hlt h.watched.promises, hne⟩

end Continuations

section Deliveries

/-- The application after a worker has refused a delivery to a handler. -/
def losing (a : App) : HandlerSlot Handler → App
  | .waiting (.promise i) => a.withPromises (a.promises.setIfInBounds i .lost)
  | .waiting (.scripted ..) | .waiting (.foreign ..) | .waiting .silent | .running | .released => a

theorem exists_losing (a : App) (slot : HandlerSlot Handler) :
    ∃ promises, a.losing slot = a.withPromises promises := by
  rcases slot with handler | _ | _
  · cases handler with
    | promise i => exact ⟨_, rfl⟩
    | scripted | foreign | silent => exact ⟨a.promises, rfl⟩
  · exact ⟨a.promises, rfl⟩
  · exact ⟨a.promises, rfl⟩

/-- A delivery that is refused is lost, and a promise with it. -/
theorem run_submit_refused {d : Delivery Nat Side} (h : (a.worker d.executor).accepting = false) :
    (Program.submit d).run a =
      ((), a.losing (a.cells.getD d.continuation { slot := .released }).slot) := by
  have hrun : ((Program.worker d.executor).step (·.execute (.resume d.continuation d.outcome
      d.terminal))).run a = (((a.worker d.executor).accept (taskOf d)).1,
        a.setWorker d.executor ((a.worker d.executor).accept (taskOf d)).2) := rfl
  rw [Worker.accept_of_not_accepting h, setWorker_self] at hrun
  rw [Program.submit, run_bind, hrun]
  dsimp only
  have hget : (get : Program App).run a = (a, a) := rfl
  rw [cell_get_bind, run_bind, hget]
  dsimp only
  rcases (a.cells.getD d.continuation { slot := .released }).slot with handler | _ | _
  · cases handler with
    | promise | scripted | foreign | silent => rfl
  · rfl
  · rfl

theorem run_submit_accepted {d : Delivery Nat Side} (h : (a.worker d.executor).accepting = true) :
    (Program.submit d).run a = ((), a.enqueued d.executor (taskOf d)) := by
  have hrun : ((Program.worker d.executor).step (·.execute (.resume d.continuation d.outcome
      d.terminal))).run a = (((a.worker d.executor).accept (taskOf d)).1,
        a.setWorker d.executor ((a.worker d.executor).accept (taskOf d)).2) := rfl
  rw [Worker.accept_of_accepting h] at hrun
  rw [Program.submit, run_bind, hrun]
  rfl

/-- A delivery is for a continuation that is there, and what is watched gets only one that is the
last. -/
structure Fair (w : Watch) (d : Delivery Nat Side) : Prop where
  cell : d.continuation < w.cells
  last : w.keeps (taskOf d) = true → d.executor = .tester ∧ w.Last (taskOf d)

/-- An ending that was in hand is lost, and the promise with it. -/
theorem Watched.losing {d : Delivery Nat Side}
    (ha : Watched w (hand + if w.keeps (taskOf d) = true then 1 else 0) a) (hd : Fair w d)
    (hshut : (a.worker d.executor).accepting = false) :
    Watched w hand (a.losing (a.cells.getD d.continuation { slot := .released }).slot) := by
  cases hkeeps : w.keeps (taskOf d) with
  | true =>
    rw [if_pos hkeeps] at ha
    have hnumber : w.number = some d.continuation := of_decide_eq_true hkeeps
    obtain ⟨⟨_, c⟩, hcell, rfl⟩ := Option.map_eq_some_iff.mp hnumber
    obtain ⟨hfits, p, hp, hslot⟩ := w.loses _ c (hand + w.owed a) (w.held a) hcell
      (by rw [Nat.add_right_comm]; exact ha.fits)
    have hfound : a.cells.getD d.continuation { slot := .released } = c := by
      rw [Array.getD_eq_getD_getElem?, ha.cell _ c hcell]
      rfl
    have hp_lt : p < a.promises.size := Nat.lt_of_lt_of_le (w.inRange p hp) ha.promises
    have hheld : w.held (a.withPromises (a.promises.setIfInBounds p .lost)) = some .lost := by
      rw [Watch.held, hp]
      exact Array.getElem?_setIfInBounds_self_of_lt hp_lt
    rw [hfound, hslot]
    apply ha.withPromises
    · exact Nat.le_of_eq Array.size_setIfInBounds.symm
    · rw [hheld]
      exact hfits
    · intro _
      rw [(hd.last hkeeps).1] at hshut
      exact hshut
  | false =>
    rw [hkeeps] at ha
    have hnumber : w.number ≠ some d.continuation := of_decide_eq_false hkeeps
    cases hfound : a.cells[d.continuation]? with
    | none =>
      rw [Array.getD_eq_getD_getElem?, hfound]
      exact ha
    | some c =>
      rw [Array.getD_eq_getD_getElem?, hfound]
      change Watched w hand (a.losing c.slot)
      rcases hslot : c.slot with handler | _ | _
      · cases handler with
        | promise i =>
          refine ha.settle (fun hi => hnumber ?_) .lost
          exact ha.sole d.continuation c i hi hfound hslot
        | scripted | foreign | silent => exact ha
      · exact ha
      · exact ha

/-- Both applications submit a delivery that was in hand. -/
theorem Beside.submit {d : Delivery Nat Side}
    (h : Beside w (hand + if w.keeps (taskOf d) = true then 1 else 0) a b) (hd : Fair w d) :
    Beside w hand ((Program.submit d).run a).2 ((Program.submit d).run b).2 := by
  cases haccepting : (a.worker d.executor).accepting with
  | true =>
    rw [run_submit_accepted haccepting, run_submit_accepted (h.accepting _ ▸ haccepting)]
    exact h.enqueued rfl hd.cell hd.last
  | false =>
    rw [run_submit_refused haccepting, run_submit_refused (h.accepting _ ▸ haccepting)]
    have ha := h.watched.losing hd haccepting
    obtain ⟨promises, heq⟩ :=
      a.exists_losing (a.cells.getD d.continuation { slot := .released }).slot
    obtain ⟨promises', heq'⟩ :=
      b.exists_losing (b.cells.getD d.continuation { slot := .released }).slot
    rw [heq] at ha
    rw [heq, heq']
    exact h.withPromises ha promises'

theorem Beside.submitAll {deliveries : List (Delivery Nat Side)}
    (h : Beside w (hand + deliveries.countP fun d => w.keeps (taskOf d)) a b)
    (hfair : ∀ d ∈ deliveries, Fair w d) :
    Beside w hand ((deliveries.forM Program.submit).run a).2
      ((deliveries.forM Program.submit).run b).2 := by
  induction deliveries generalizing a b with
  | nil => exact h
  | cons d deliveries ih =>
    rw [List.countP_cons, ← Nat.add_assoc] at h
    exact ih (h.submit (hfair d List.mem_cons_self)) fun other hother =>
      hfair other (List.mem_cons_of_mem d hother)

end Deliveries

section Tables

/-- Only a request that wants intermediate results gets any. -/
def Sparing (t : PendingTable Nat Side) (deliveries : List (Delivery Nat Side)) : Prop :=
  ∀ d ∈ deliveries, d.terminal = true ∨
    ∃ e ∈ t.entries, e.2.continuation = d.continuation ∧ e.2.streaming = true

theorem sparing_complete {t : PendingTable Nat Side} (h : t.Sharded) (id : RequestId)
    (result : CmdResult) : Sparing t (t.complete id result).2.1 := by
  intro d hd
  cases hf : t.find? id with
  | none =>
    rw [PendingTable.complete_of_none hf] at hd
    cases hd
  | some request =>
    cases hfinal : result.isFinal with
    | true =>
      rw [PendingTable.complete_of_final hf hfinal, List.mem_singleton] at hd
      exact .inl (hd ▸ rfl)
    | false =>
      rw [PendingTable.complete_of_interim hf hfinal] at hd
      split at hd
      · next hstream =>
        rw [List.mem_singleton.mp hd]
        exact .inr ⟨_, (h.find?_eq_some_iff id request).mp hf, rfl, hstream⟩
      · cases hd

theorem sparing_fail (t : PendingTable Nat Side) (id : RequestId) (fault : Fault) :
    Sparing t (t.fail id fault).2.1 := by
  intro d hd
  cases hf : t.find? id with
  | none =>
    rw [PendingTable.fail_of_none hf] at hd
    cases hd
  | some request =>
    rw [PendingTable.fail_of_some hf, List.mem_singleton] at hd
    exact .inl (hd ▸ rfl)

theorem sparing_cancelAll (t : PendingTable Nat Side) (reason : String) :
    Sparing t (t.cancelAll reason).2.1 := by
  intro d hd
  obtain ⟨e, -, rfl⟩ := List.mem_map.mp hd
  exact .inl rfl

/-- The application with another router. -/
def withRouter (a : App) (router : Router Nat Side Side) : App := { a with router }

/-- The router has changed, and with it what waits or is in hand. -/
theorem Watched.withRouter {hand' : Nat} (ha : Watched w hand a) {r : Router Nat Side Side}
    (hsharded : r.table.Sharded)
    (hentries : ∀ e ∈ r.table.entries, e.2.continuation < a.cells.size)
    (hasked : ∀ e ∈ r.table.entries, w.number = some e.2.continuation →
      e.2.executor = .tester ∧ e.2.streaming = false)
    (howed : hand' + w.waiting r.table = hand + w.waiting a.router.table) :
    Watched w hand' (a.withRouter r) :=
  { ha with
    sharded := hsharded
    entries := hentries
    asked := hasked
    fits := by
      have hsum : hand' + w.owed (a.withRouter r) = hand + w.owed a := by
        change hand' + (w.waiting r.table + a.testerWorker.queue.countP w.keeps) =
          hand + (w.waiting a.router.table + a.testerWorker.queue.countP w.keeps)
        omega
      rw [hsum]
      exact ha.fits }

theorem Beside.withRouter {hand' : Nat} (h : Beside w hand a b) {r : Router Nat Side Side}
    (ha : Watched w hand' (a.withRouter r)) : Beside w hand' (a.withRouter r) (b.withRouter r) where
  watched := ha
  same := by
    have hstripped (c : App) : (c.withRouter r).stripped = c.stripped.withRouter r := rfl
    rw [hstripped, hstripped, h.same]
  queues := h.queues
  cells := h.cells

/-- What is handed out to the continuation that is watched, it was owed before. -/
theorem Watched.due (ha : Watched w hand a) {deliveries : List (Delivery Nat Side)}
    {t : PendingTable Nat Side} (hout : a.router.table.HandsOut deliveries t)
    (hsparing : Sparing a.router.table deliveries) :
    w.waiting t + deliveries.countP (fun d => w.keeps (taskOf d)) =
      w.waiting a.router.table := by
  rw [Watch.waiting, Watch.waiting]
  cases hnumber : w.number with
  | none =>
    have hnone : deliveries.countP (fun d => w.keeps (taskOf d)) = 0 := by
      refine List.countP_eq_zero.mpr fun d _ hkeeps => ?_
      have hsome : w.number = some d.continuation := of_decide_eq_true hkeeps
      rw [hnumber] at hsome
      cases hsome
    rw [hnone]
    rfl
  | some k =>
    have hcount : deliveries.countP (fun d => w.keeps (taskOf d)) =
        Delivery.endings deliveries k := by
      refine List.countP_congr fun d hd => ?_
      have hkeeps : w.keeps (taskOf d) = decide (some k = some d.continuation) := by
        rw [← hnumber]
        rfl
      rw [hkeeps, Delivery.endsFor]
      rcases hsparing d hd with hterminal | ⟨e, he, heq, hstream⟩
      · simp [hterminal, eq_comm]
      · have hne : d.continuation ≠ k := by
          intro hk
          rw [(ha.asked e he (by rw [hnumber, heq, hk])).2] at hstream
          cases hstream
        simp [hne, hne.symm]
    rw [hcount]
    exact hout.waiting k

/-- Both tables do the same, and both applications submit what they hand out. -/
theorem Beside.onTable {α : Type} (h : Beside w hand a b)
    {op : PendingTable Nat Side → α × List (Delivery Nat Side) × PendingTable Nat Side}
    (hserves : a.router.table.Serves (op a.router.table).2.1 (op a.router.table).2.2)
    (hsparing : Sparing a.router.table (op a.router.table).2.1) :
    ((Program.fabric.onTable op).run a).1 = ((Program.fabric.onTable op).run b).1 ∧
      Beside w hand ((Program.fabric.onTable op).run a).2
        ((Program.fabric.onTable op).run b).2 := by
  have hrun (c : App) : (Program.fabric.onTable op).run c =
      ((op c.router.table).1, ((op c.router.table).2.1.forM Program.submit).run
        (c.withRouter { c.router with table := (op c.router.table).2.2 }) |>.2) := rfl
  rw [hrun, hrun, ← h.router]
  refine ⟨rfl, ?_⟩
  have hwatched := h.watched
  have hdue := hwatched.due hserves.handsOut hsparing
  have hhanded : Watched w
      (hand + (op a.router.table).2.1.countP fun d => w.keeps (taskOf d))
      (a.withRouter { a.router with table := (op a.router.table).2.2 }) := by
    refine hwatched.withRouter hserves.handsOut.sharded ?_ ?_ ?_
    · exact fun e he => hwatched.entries e (hserves.entries he)
    · exact fun e he => hwatched.asked e (hserves.entries he)
    · change _ + w.waiting (op a.router.table).2.2 = _
      omega
  have hbeside := (h.withRouter hhanded).above (Nat.le_refl a.cells.size) (Nat.zero_le _)
  refine (hbeside.submitAll fun d hd => ?_).of_above
  obtain ⟨e, he, heq⟩ := hserves.sources d hd
  have hcontinuation : e.2.continuation = d.continuation := by rw [heq]; rfl
  constructor
  · rw [← hcontinuation]
    exact Nat.lt_of_lt_of_le (hwatched.entries e he) (Nat.le_max_right _ _)
  · intro hkeeps
    have hnumber : w.number = some d.continuation := of_decide_eq_true hkeeps
    have hterminal : d.terminal = true := by
      rcases hsparing d hd with hterminal | ⟨e', he', heq', hstream⟩
      · exact hterminal
      · rw [(hwatched.asked e' he' (by rw [heq', hnumber])).2] at hstream
        cases hstream
    refine ⟨?_, hterminal, hserves.handsOut.terminal d hd ▸ hterminal⟩
    have hexecutor : e.2.executor = d.executor := by rw [heq]; rfl
    rw [← hexecutor]
    exact (hwatched.asked e he (by rw [hcontinuation, hnumber])).1

/-- Both routers take a request: another one, or the one whose ending was in hand. -/
theorem Beside.accepts {request : PendingRequest Nat Side}
    (h : Beside w (hand + if w.number = some request.continuation then 1 else 0) a b)
    (hcell : request.continuation < w.cells)
    (hasked : w.number = some request.continuation →
      request.executor = .tester ∧ request.streaming = false) :
    (∃ id, (a.router.accept request).1 = .ok id ∧
        Beside w hand (a.withRouter (a.router.accept request).2)
          (b.withRouter (a.router.accept request).2)) ∨
      ∃ e, (a.router.accept request).1 = .error e ∧
        Beside w (hand + if w.number = some request.continuation then 1 else 0)
          (a.withRouter (a.router.accept request).2)
          (b.withRouter (a.router.accept request).2) := by
  have hwatched := h.watched
  rcases Router.accept_cases hwatched.sharded request with ⟨id, hid, haccepts⟩ | ⟨e, he, hsame⟩
  · refine .inl ⟨id, hid, h.withRouter (hwatched.withRouter haccepts.sharded ?_ ?_ ?_)⟩
    · intro e he
      rcases List.mem_cons.mp (haccepts.entries.mem_iff.mp he) with rfl | hmem
      · exact Nat.lt_of_lt_of_le hcell hwatched.cells
      · exact hwatched.entries e hmem
    · intro e he
      rcases List.mem_cons.mp (haccepts.entries.mem_iff.mp he) with rfl | hmem
      · exact hasked
      · exact hwatched.asked e hmem
    · rw [Watch.waiting, Watch.waiting]
      cases hnumber : w.number with
      | none => rfl
      | some k =>
        change hand + (a.router.accept request).2.table.waitingFor k =
          (hand + if some k = some request.continuation then 1 else 0) +
            a.router.table.waitingFor k
        rw [PendingTable.waitingFor, haccepts.entries.countP_eq, List.countP_cons,
          PendingTable.waitingFor]
        simp only [decide_eq_true_eq, Option.some.injEq, eq_comm (a := k)]
        omega
  · refine .inr ⟨e, he, h.withRouter ?_⟩
    rw [hsame]
    exact hwatched.withRouter hwatched.sharded.allocate hwatched.entries hwatched.asked rfl

end Tables

end Switchboard.App
