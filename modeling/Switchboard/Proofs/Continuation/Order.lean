import Switchboard.Proofs.Continuation.Stages
/-!
# Orderly continuations

Where deliveries arrive one by one, each after the call of the one before has returned, the handler
gets all of them up to the terminal one. After that it has been called with exactly one outcome
that ends its request.
-/
namespace Switchboard

/-- Whether the handler is called with an outcome that ends its request. -/
def Visit.isLastCall : Visit → Bool
  | .arrival outcome _ called => called && outcome.isTerminal
  | .returned => false

/-- Just those deliveries are terminal that carry an outcome that ends a request. -/
def Visit.Honest : Visit → Prop
  | .arrival outcome terminal _ => terminal = outcome.isTerminal
  | .returned => True

namespace Continuation

variable {h : Type}

/-- A continuation that is faithful, that is never reentered, and that gets honest deliveries. -/
structure Orderly (c : Continuation h) : Prop where
  faithful : c.Faithful
  alone : c.NeverReentered
  honest : ∀ visit ∈ c.history, visit.Honest

theorem orderly_ofHandler (handler : h) : (ofHandler handler).Orderly where
  faithful := faithful_ofHandler handler
  alone earlier outcome terminal called hprefix := by
    have hnil := List.prefix_nil.mp hprefix
    simp at hnil
  honest visit hvisit := absurd hvisit List.not_mem_nil

/-- How a delivery is recorded that arrives. -/
theorem history_takeOut (c : Continuation h) (outcome : Outcome) (terminal : Bool) :
    ∃ called, (c.takeOut outcome terminal).2.history =
      c.history ++ [.arrival outcome terminal called] := by
  rw [Continuation.takeOut]
  split
  · exact ⟨true, rfl⟩
  · exact ⟨false, rfl⟩
  · exact ⟨false, rfl⟩

theorem history_putBack (c : Continuation h) (terminal : Bool) (handler : h) :
    (c.putBack terminal handler).history = c.history ++ [.returned] := by
  cases terminal <;> rfl

/-- An honest delivery that arrives when no call is in progress keeps the order. -/
theorem Orderly.takeOut {c : Continuation h} (hc : c.Orderly)
    (hquiet : ∀ busyWith, c.stage ≠ .busy busyWith) (outcome : Outcome) {terminal : Bool}
    (hterminal : terminal = outcome.isTerminal) : (c.takeOut outcome terminal).2.Orderly := by
  obtain ⟨called, hhistory⟩ := c.history_takeOut outcome terminal
  constructor
  · exact (hc.faithful.takeOut outcome terminal).1
  · intro earlier outcome' terminal' called' hprefix
    rw [hhistory] at hprefix
    rcases List.prefix_concat_iff.mp hprefix with heq | hold
    · obtain ⟨rfl, -⟩ := List.append_inj' heq rfl
      exact hquiet
    · exact hc.alone earlier outcome' terminal' called' hold
  · intro visit hvisit
    rw [hhistory, List.mem_append, List.mem_singleton] at hvisit
    rcases hvisit with hold | rfl
    · exact hc.honest visit hold
    · exact hterminal

/-- A call that returns keeps the order. -/
theorem Orderly.putBack {c : Continuation h} (hc : c.Orderly) {terminal : Bool}
    (hstage : c.stage = .busy terminal) (handler : h) : (c.putBack terminal handler).Orderly := by
  have hhistory := c.history_putBack terminal handler
  constructor
  · exact (hc.faithful.putBack hstage handler).1
  · intro earlier outcome terminal' called hprefix
    rw [hhistory] at hprefix
    rcases List.prefix_concat_iff.mp hprefix with heq | hold
    · obtain ⟨-, hvisit⟩ := List.append_inj' heq rfl
      cases hvisit
    · exact hc.alone earlier outcome terminal' called hold
  · intro visit hvisit
    rw [hhistory, List.mem_append, List.mem_singleton] at hvisit
    rcases hvisit with hold | rfl
    · exact hc.honest visit hold
    · trivial

/-- Up to its last call an orderly continuation gets no terminal delivery; from then on it makes
no other last call. -/
theorem Orderly.countP_isLastCall {c : Continuation h} (hc : c.Orderly) (moment : List Visit)
    (hmoment : moment <+: c.history) :
    match Stage.after moment with
    | .idle | .busy false => moment.countP Visit.isEnd = 0 ∧ moment.countP Visit.isLastCall = 0
    | .busy true | .ended => moment.countP Visit.isLastCall = 1 := by
  induction moment using List.reverseRecOn with
  | nil => exact ⟨rfl, rfl⟩
  | append_singleton moment visit ih =>
    have hbefore := ih ((List.prefix_append moment [visit]).trans hmoment)
    have hfits := hc.faithful.fits moment visit hmoment
    have hhonest := hc.honest visit (hmoment.subset (by simp))
    rw [Stage.after_concat]
    simp only [List.countP_append, List.countP_singleton]
    cases visit with
    | returned =>
      obtain ⟨terminal, hstage⟩ := hfits
      rw [hstage] at hbefore ⊢
      cases terminal <;> simpa [Stage.next, Stage.afterCall, Visit.isEnd, Visit.isLastCall]
        using hbefore
    | arrival outcome terminal called =>
      have hquiet := hc.alone moment outcome terminal called hmoment
      cases hstage : Stage.after moment with
      | busy busyWith => exact absurd hstage (hquiet busyWith)
      | idle =>
        obtain rfl : called = true := hfits.mpr hstage
        rw [hstage] at hbefore
        cases terminal <;>
          simp_all [Stage.next, Visit.isEnd, Visit.isLastCall, Visit.Honest]
      | ended =>
        have hcalled : called = false := by
          rw [← Bool.not_eq_true]
          intro hcalled
          have hidle := hfits.mp hcalled
          rw [hstage] at hidle
          cases hidle
        rw [hstage] at hbefore
        simp_all [Stage.next, Visit.isLastCall]

/-- An orderly continuation that got its terminal delivery and is not busy any more was called with
exactly one outcome that ends its request, and is finished and released. -/
theorem Orderly.ended {c : Continuation h} (hc : c.Orderly)
    (hquiet : ∀ busyWith, c.stage ≠ .busy busyWith) (hends : 0 < c.ends) :
    c.history.countP Visit.isLastCall = 1 ∧ c.finished = true ∧ c.isReleased = true := by
  have hcount := hc.countP_isLastCall c.history (List.prefix_refl _)
  rcases hc.faithful.settled hquiet with ⟨hstage, -, -⟩ | ⟨hstage, hfinished, hreleased⟩
  · rw [show Stage.after c.history = .idle from hstage] at hcount
    rw [ends, hcount.1] at hends
    exact absurd hends (Nat.lt_irrefl 0)
  · rw [show Stage.after c.history = .ended from hstage] at hcount
    exact ⟨hcount, hfinished, hreleased⟩

end Continuation
end Switchboard
