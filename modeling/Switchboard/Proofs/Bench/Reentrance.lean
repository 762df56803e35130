import Switchboard.Proofs.Bench.Programs
/-!
# Deliveries and calls in progress

A handler may do anything, also pump the context that its own deliveries are queued on. In every
run the deliveries of a continuation are lost just in that case: a continuation that was taken for
one request only loses nothing if and only if no delivery arrives during one of its calls.
-/
namespace Switchboard.Bench

open World

/-- Performs steps from outside, one after the other; scripts may run within scripts `depth`
deep. -/
def performAll (depth : Nat) (steps : List Step) : Program PUnit :=
  steps.forM fun step => do
    let _ ← Runner.perform (runScript depth) step

theorem keeps_performAll (depth : Nat) (steps : List Step) : Keeps (performAll depth steps) :=
  composes_keeps.forM
    (fun step => (keeps_perform (keeps_runScript depth) step).bind fun _ => keeps_pure _) steps

/-- After every run no call is in progress any more, and a continuation that was taken for at most
one request has lost no delivery if and only if none arrived during a call. -/
theorem losesNothing_iff_neverReentered {shards depth : Nat} {contexts : List String}
    {steps : List Step} {w : World}
    (hrun : (performAll depth steps).run (ofContexts shards contexts) = some (PUnit.unit, w))
    {i : Nat} {cell : Cell} (hfound : w.cells[i]? = some cell)
    (hone : w.router.table.takenFor i ≤ 1) :
    cell.continuation.Settled ∧
      (cell.continuation.LosesNothing ↔ cell.continuation.NeverReentered) := by
  obtain ⟨hsound, hbalanced⟩ :=
    keeps_performAll depth steps _ _ _ hrun 0 (sound_ofContexts shards contexts)
  have hfaithful := hsound.faithful i cell hfound
  constructor
  · apply hfaithful.settled
    intro terminal hbusy
    have hstage : w.stage i = .busy terminal := by
      rw [stage, history_of_getElem? hfound]
      exact hbusy
    -- no continuation is there when the run begins
    have hbegin := (hbalanced i terminal).mpr hstage
    simp [stage, history, ofContexts] at hbegin
  · exact hfaithful.losesNothing_iff (Nat.le_trans (hsound.ends_le hfound) hone)

/-- What has happened at the first continuation of a run on one context, and for how many requests
it was taken. -/
def firstAccount (steps : List Step) : Option (List Visit × Nat) := do
  let (_, w) ← (performAll 2 steps).run (ofContexts 1 ["t"])
  let cell ← w.cells[0]?
  return (cell.continuation.history, w.router.table.takenFor 0)

theorem exists_of_firstAccount {steps : List Step} {history : List Visit} {n : Nat}
    (h : firstAccount steps = some (history, n)) :
    ∃ w cell, (performAll 2 steps).run (ofContexts 1 ["t"]) = some (PUnit.unit, w) ∧
      w.cells[0]? = some cell ∧ cell.continuation.history = history ∧
      w.router.table.takenFor 0 = n := by
  obtain ⟨⟨u, w⟩, hrun, hcell⟩ := Option.bind_eq_some_iff.mp h
  obtain ⟨cell, hfound, haccount⟩ := Option.bind_eq_some_iff.mp hcell
  obtain ⟨hhistory, htaken⟩ := Prod.mk.inj (Option.some.inj haccount)
  exact ⟨w, cell, hrun, hfound, hhistory, htaken⟩

/-- A request gets a result and its end; the handler does nothing. -/
def plainRun : List Step :=
  [.cont "c" [] [], .register ⟨1⟩ "c" true (.context "t"),
    .complete ⟨1⟩ (.given { verdict := .ok, isFinal := false }),
    .complete ⟨1⟩ (.given { verdict := .ok }), .pump "t" 2]

theorem plainRun_settles :
    ∃ w cell, (performAll 2 plainRun).run (ofContexts 1 ["t"]) = some (PUnit.unit, w) ∧
      w.cells[0]? = some cell ∧ w.router.table.takenFor 0 ≤ 1 ∧ cell.continuation.Settled ∧
      (cell.continuation.LosesNothing ↔ cell.continuation.NeverReentered) := by
  have haccount : firstAccount plainRun = some
      ([.arrival (.ok { verdict := .ok, isFinal := false }) false true, .returned,
        .arrival (.ok { verdict := .ok }) true true, .returned], 1) := by
    decide +kernel
  obtain ⟨w, cell, hrun, hfound, -, htaken⟩ := exists_of_firstAccount haccount
  have hone := Nat.le_of_eq htaken
  exact ⟨w, cell, hrun, hfound, hone, losesNothing_iff_neverReentered hrun hfound hone⟩

/-- A request gets a result and its end; at the result the handler pumps the context on which the
end is queued. -/
def reentrantRun : List Step :=
  [.cont "c" [(1, [.pump "t" 1])] [], .register ⟨1⟩ "c" true (.context "t"),
    .complete ⟨1⟩ (.given { verdict := .ok, isFinal := false }),
    .complete ⟨1⟩ (.given { verdict := .ok }), .pump "t" 2]

/-- The end arrives during the call for the result, and is lost. -/
theorem reentrantRun_loses_the_end :
    ∃ w cell, (performAll 2 reentrantRun).run (ofContexts 1 ["t"]) = some (PUnit.unit, w) ∧
      w.cells[0]? = some cell ∧ w.router.table.takenFor 0 ≤ 1 ∧
      cell.continuation.history =
        [.arrival (.ok { verdict := .ok, isFinal := false }) false true,
          .arrival (.ok { verdict := .ok }) true false, .returned] ∧
      ¬ cell.continuation.LosesNothing := by
  have haccount : firstAccount reentrantRun = some
      ([.arrival (.ok { verdict := .ok, isFinal := false }) false true,
        .arrival (.ok { verdict := .ok }) true false, .returned], 1) := by
    decide +kernel
  obtain ⟨w, cell, hrun, hfound, hhistory, htaken⟩ := exists_of_firstAccount haccount
  refine ⟨w, cell, hrun, hfound, Nat.le_of_eq htaken, hhistory, fun hloses => ?_⟩
  have hcalled := hloses.calls [.arrival (.ok { verdict := .ok, isFinal := false }) false true]
    (.ok { verdict := .ok }) true false (by rw [hhistory]; exact ⟨[.returned], rfl⟩) nofun
  cases hcalled

end Switchboard.Bench
