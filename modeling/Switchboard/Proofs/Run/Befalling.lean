import Switchboard.Proofs.Run.Performances
/-!
# What happens at continuations

Along a course nothing happens at a continuation but that deliveries arrive which were queued, and
that calls return. A delivery that ends a request finds the handler, and for every delivery that has
found one a worker has performed the call.
-/
namespace Switchboard.App

section Befalls

variable {owners : List Side} {s s' : Scene} {deed : Deed}

/-- What has happened at the continuations by a deed: a delivery has arrived that was queued, or a
call has returned. A delivery that ends a request has called the handler, and whatever has called it
is a call of the performance. -/
structure Befalls (deed : Deed) (s s' : Scene) : Prop where
  taken : ∀ i ∈ s.app.router.table.taken, i ∈ s'.app.router.table.taken
  history : ∀ i, ∀ visit ∈ s'.app.history i, visit ∈ s.app.history i ∨ visit = .returned ∨
    ∃ side outcome terminal called, visit = .arrival outcome terminal called ∧
      .job (.resume i outcome terminal) ∈ (s.app.worker side).queue ∧
      (terminal = true → called = true) ∧
      (called = true → ∃ p, deed.performance? s = some p ∧ ∃ call, p.call? = some call ∧
        call.cell = i ∧ call.outcome = outcome ∧ call.terminal = terminal)

theorem befalls_of_calm (h : Calm s.app s'.app) : Befalls deed s s' where
  taken := h.persists.table.taken
  history i _ hvisit := Or.inl (h.history i ▸ hvisit)

/-- Nothing happens at any continuation when a worker is changed. -/
theorem befalls_of_history (hrouter : s'.app.router = s.app.router)
    (hhistory : ∀ i, s'.app.history i = s.app.history i) : Befalls deed s s' where
  taken _ hi := hrouter ▸ hi
  history i _ hvisit := Or.inl (hhistory i ▸ hvisit)

namespace Scene

theorem app_resume (s : Scene) (side : Side) (i : Nat) (outcome : Outcome) (terminal : Bool) :
    (s.resume side i outcome terminal).app = s.app.setCell i
      ((s.app.cells.getD i { slot := .released }).takeOut outcome terminal).2 := by
  rw [resume]
  split
  · rfl
  · rfl

/-- A delivery that a worker takes calls the handler or finds none, and a delivery that ends a request
finds it. The worker performs the call. -/
theorem Lasting.exists_called (h : s.Lasting owners) {side : Side} (hidle : s.busy side = none)
    {i : Nat} {outcome : Outcome} {terminal : Bool} {tasks : List (Task Job)}
    (hqueue : (s.app.worker side).queue = .job (.resume i outcome terminal) :: tasks)
    {c : Continuation Handler} (hfound : s.app.cells[i]? = some c) :
    ∃ called,
      (c.takeOut outcome terminal).2.history = c.history ++ [.arrival outcome terminal called] ∧
      (terminal = true → called = true) ∧
      (called = true → ∃ p, Deed.performance? s (.act (.take side)) = some p ∧
        ∃ call, p.call? = some call ∧ call.cell = i ∧ call.outcome = outcome ∧
          call.terminal = terminal) := by
  obtain ⟨p, hperformance, hcall⟩ : ∃ p, Deed.performance? s (.act (.take side)) = some p ∧
      p.call? = (c.takeOut outcome terminal).1.map
        fun found => { cell := i, handler := found.1, number := found.2, outcome, terminal } := by
    refine ⟨{ app := s.app.popped side, side, job := .resume i outcome terminal }, ?_, ?_⟩
    · rw [performance?_take, hqueue]
      rfl
    · dsimp only [Performance.call?]
      rw [popped, cells_setWorker, Array.getD_eq_getD_getElem?, hfound]
      rfl
  rcases takeOut_cases c outcome terminal with ⟨handler, n, -, hsome, hhistory⟩ | ⟨-, hhistory⟩
  · rw [hsome] at hcall
    exact ⟨true, hhistory, fun _ => rfl, fun _ => ⟨p, hperformance, _, hcall, rfl, rfl, rfl⟩⟩
  · refine ⟨false, hhistory, fun hterminal => ?_, (absurd · Bool.false_ne_true)⟩
    subst hterminal
    obtain ⟨c', handler, hfound', hslot⟩ := h.accounted.exists_waiting hidle hqueue
    cases hfound.symm.trans hfound'
    have hcalls := (resume_of_waiting hfound hslot side outcome true).2
    rw [hhistory] at hcalls
    cases List.append_cancel_left hcalls

/-- A worker begins with a delivery. -/
theorem Lasting.befalls_resume (h : s.Lasting owners) {side : Side} (hidle : s.busy side = none)
    {i : Nat} {outcome : Outcome} {terminal : Bool} {tasks : List (Task Job)}
    (hqueue : (s.app.worker side).queue = .job (.resume i outcome terminal) :: tasks) :
    Befalls (.act (.take side)) s (start
      { s with app := s.app.popped side, runner := s.runner.countDown side } side
        (.job (.resume i outcome terminal))) := by
  set began : Scene := { s with app := s.app.popped side, runner := s.runner.countDown side }
  have hcells : began.app.cells = s.app.cells := cells_setWorker s.app side _
  have hrouter : began.app.router = s.app.router := router_setWorker s.app side _
  have hbefore (k : Nat) : began.app.history k = s.app.history k := history_setWorker s.app side _ k
  have happ := began.app_resume side i outcome terminal
  rw [Array.getD_eq_getD_getElem?] at happ
  cases hfound : began.app.cells[i]? with
  | none =>
    rw [hfound, setCell_of_size_le (Array.getElem?_eq_none_iff.mp hfound)] at happ
    exact befalls_of_history ((congrArg App.router happ).trans hrouter) fun k =>
      (congrArg (App.history · k) happ).trans (hbefore k)
  | some c =>
    rw [hfound, Option.getD_some] at happ
    obtain ⟨called, hhistory, hcalled, hcalls⟩ := h.exists_called hidle hqueue (hcells ▸ hfound)
    refine ⟨fun k hk => ?_, fun k visit hvisit => ?_⟩
    · change k ∈ (began.resume side i outcome terminal).app.router.table.taken
      rw [happ]
      exact hrouter ▸ hk
    · change visit ∈ (began.resume side i outcome terminal).app.history k at hvisit
      rw [happ, history_setCell hfound] at hvisit
      split at hvisit
      · next heq =>
        subst heq
        rw [hhistory, ← history_of_getElem? hfound, hbefore] at hvisit
        rcases List.mem_append.mp hvisit with hold | hnew
        · exact Or.inl hold
        · exact Or.inr (Or.inr ⟨side, outcome, terminal, called, List.mem_singleton.mp hnew,
            hqueue ▸ List.mem_cons_self, hcalled, hcalls⟩)
      · exact Or.inl (hbefore k ▸ hvisit)

/-- A job ends. -/
theorem befalls_finish (s : Scene) (side : Side) (business : Business) (ended : Except Panic Unit) :
    Befalls (.act (.finish side ended)) s
      { s with
        app := (s.app.ending business).counted side ended
        busy := Function.update s.busy side none } := by
  have hunshaken := unshaken_ended s.app business side ended
  have hcounted (i : Nat) : ((s.app.ending business).counted side ended).history i =
      (s.app.ending business).history i := history_setWorker _ side _ i
  refine ⟨fun i hi => ?_, fun i visit hvisit => ?_⟩
  · change i ∈ ((s.app.ending business).counted side ended).router.table.taken
    rw [hunshaken.router]
    exact hi
  · change visit ∈ ((s.app.ending business).counted side ended).history i at hvisit
    rw [hcounted] at hvisit
    cases business with
    | other => exact Or.inl hvisit
    | call k handler terminal =>
      rw [ending, Array.getD_eq_getD_getElem?] at hvisit
      cases hfound : s.app.cells[k]? with
      | none =>
        rw [setCell_of_size_le (Array.getElem?_eq_none_iff.mp hfound)] at hvisit
        exact Or.inl hvisit
      | some c =>
        rw [history_setCell hfound] at hvisit
        split at hvisit
        · next heq =>
          subst heq
          rw [hfound, Option.getD_some, c.history_putBack, ← history_of_getElem? hfound] at hvisit
          exact (List.mem_append.mp hvisit).imp id fun hnew => Or.inl (List.mem_singleton.mp hnew)
        · exact Or.inl hvisit

/-- Whatever happens. -/
theorem Lasting.befalls (h : s.Lasting owners) (hdeed : s.undergo deed = some s') :
    Befalls deed s s' := by
  have hsame (hsame : Same s.app s'.app) : Befalls deed s s' := befalls_of_calm hsame.calm
  cases deed with
  | giveUp =>
    rcases giveUp_eq_some hdeed with ⟨-, rfl⟩ | ⟨_, -, rfl⟩
    · exact hsame rfl
    · exact befalls_of_calm (keeps_abort "run timed out" s.app 0 h.accounted.sound).2
  | act act =>
    cases act with
    | operate op =>
      cases hdeed
      exact befalls_of_calm (op.keeps s.app 0 h.accounted.sound).2
    | note notes =>
      cases hdeed
      exact hsame rfl
    | take side =>
      obtain ⟨hidle, task, tasks, hqueue, rfl⟩ := take_eq_some hdeed
      cases task with
      | mark =>
        exact befalls_of_history
          ((router_setWorker _ side _).trans (router_setWorker s.app side _)) fun i =>
            (history_setWorker _ side _ i).trans (history_setWorker s.app side _ i)
      | job job =>
        cases job with
        | resume i outcome terminal => exact h.befalls_resume hidle hqueue
        | arrival | phase | initExtension | startExtension | completion =>
          exact befalls_of_history (router_setWorker s.app side _) (history_setWorker s.app side _)
    | finish side ended =>
      obtain ⟨business, -, rfl⟩ := Option.map_eq_some_iff.mp hdeed
      exact befalls_finish s side business ended
    | call tester =>
      obtain ⟨-, rfl⟩ := call_eq_some hdeed
      exact hsame rfl
    | proceed =>
      rcases proceed_cases hdeed with ⟨α, p, next, hp, rfl, -, -⟩ | ⟨-, rfl⟩ |
        ⟨side, -, rfl⟩ | ⟨-, rfl⟩
      · exact befalls_of_calm (hp.keeps s.app 0 h.accounted.sound).2
      · exact befalls_of_calm (keeps_abort "tester dropped" s.app 0 h.accounted.sound).2
      · exact befalls_of_history (router_setWorker s.app side _) (history_setWorker s.app side _)
      · exact befalls_of_history rfl fun _ => rfl

end Scene

end Befalls

end Switchboard.App
