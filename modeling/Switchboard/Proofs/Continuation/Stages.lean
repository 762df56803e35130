import Mathlib.Data.List.Induction
import Switchboard.Continuation
/-!
# Stages of a continuation

What has happened at a continuation tells in which stage it is: idle, busy with a call, or ended.
A continuation is faithful if its fields say the same, and if just those deliveries called the
handler that arrived while it was idle. A delivery that arrives earlier than the end is lost only
if it arrives during a call.
-/
namespace Switchboard

deriving instance DecidableEq for Visit

/-- Whether a visit is the arrival of a terminal delivery. -/
def Visit.isEnd : Visit → Bool
  | .arrival _ terminal _ => terminal
  | .returned => false

/-- The stage of a continuation. -/
inductive Stage where
  | idle
  | busy (terminal : Bool)
  | ended
deriving DecidableEq

namespace Stage

/-- The stage after a call has returned. -/
def afterCall (terminal : Bool) : Stage := if terminal then .ended else .idle

/-- The stage after a visit. -/
def next : Stage → Visit → Stage
  | .idle, .arrival _ terminal true => .busy terminal
  | .busy terminal, .returned => afterCall terminal
  | stage, _ => stage

/-- The stage after all that has happened. -/
def after (history : List Visit) : Stage := history.foldl next .idle

@[simp] theorem after_nil : after [] = .idle := rfl

theorem after_append (first second : List Visit) :
    after (first ++ second) = second.foldl next (after first) := List.foldl_append

@[simp] theorem after_concat (history : List Visit) (visit : Visit) :
    after (history ++ [visit]) = (after history).next visit := by
  rw [after_append]
  rfl

/-- A delivery that is dropped changes no stage. -/
theorem next_dropped (stage : Stage) (outcome : Outcome) (terminal : Bool) :
    stage.next (.arrival outcome terminal false) = stage := by
  cases stage <;> rfl

/-- Nothing changes any more after the end. -/
theorem foldl_ended (visits : List Visit) : visits.foldl next .ended = .ended := by
  induction visits with
  | nil => rfl
  | cons visit visits ih => exact ih

/-- A terminal call ends the continuation as soon as it returns. -/
theorem foldl_busy_of_returned {visits : List Visit} (h : .returned ∈ visits) :
    visits.foldl next (.busy true) = .ended := by
  induction visits with
  | nil => exact absurd h List.not_mem_nil
  | cons visit visits ih =>
    cases visit with
    | returned => exact foldl_ended visits
    | arrival outcome terminal called =>
      have hrest : .returned ∈ visits := by simpa using h
      exact ih hrest

/-- Only the arrival of a terminal delivery leads to the end. -/
theorem isEnd_of_after {history : List Visit}
    (h : after history = .ended ∨ after history = .busy true) :
    0 < history.countP Visit.isEnd := by
  induction history using List.reverseRecOn with
  | nil => rcases h with h | h <;> cases h
  | append_singleton history visit ih =>
    rw [List.countP_append]
    rw [after_concat] at h
    cases hstage : after history with
    | ended =>
      have := ih (Or.inl hstage)
      omega
    | busy terminal =>
      cases terminal with
      | true =>
        have := ih (Or.inr hstage)
        omega
      | false => cases visit <;> simp [hstage, next, afterCall] at h
    | idle =>
      rcases visit with ⟨outcome, terminal, called⟩ | _
      · cases called <;> simp_all [next, Visit.isEnd]
      · simp [hstage, next] at h

end Stage

/-- Just those deliveries call the handler that arrive when it is idle, and only calls return. -/
def Visit.Fits (stage : Stage) : Visit → Prop
  | .arrival _ _ called => called = true ↔ stage = .idle
  | .returned => ∃ terminal, stage = .busy terminal

namespace Continuation

variable {h : Type}

/-- The stage of a continuation. -/
def stage (c : Continuation h) : Stage := Stage.after c.history

/-- How many terminal deliveries have arrived. -/
def ends (c : Continuation h) : Nat := c.history.countP Visit.isEnd

/-- The slot and the mark of a continuation in a stage. -/
def ShowsStage (c : Continuation h) : Stage → Prop
  | .idle => (∃ handler, c.slot = .waiting handler) ∧ c.finished = false
  | .busy _ => c.slot = .running ∧ c.finished = false
  | .ended => c.slot = .released ∧ c.finished = true

/-- The fields of a continuation say what has happened, and all visits fit. -/
structure Faithful (c : Continuation h) : Prop where
  shows : c.ShowsStage c.stage
  fits : ∀ earlier visit, earlier ++ [visit] <+: c.history → visit.Fits (Stage.after earlier)

@[simp] theorem stage_note (c : Continuation h) (visit : Visit) :
    (c.note visit).stage = c.stage.next visit := Stage.after_concat c.history visit

theorem ends_note (c : Continuation h) (visit : Visit) :
    (c.note visit).ends = c.ends + if visit.isEnd then 1 else 0 := by
  rw [ends, note, List.countP_append, List.countP_singleton]
  rfl

theorem faithful_ofHandler (handler : h) : (ofHandler handler).Faithful where
  shows := ⟨⟨handler, rfl⟩, rfl⟩
  fits earlier visit hprefix := by
    have hnil := List.prefix_nil.mp hprefix
    simp at hnil

/-- A visit that fits keeps a continuation faithful if its fields show the next stage. -/
theorem Faithful.note {c c' : Continuation h} (hc : c.Faithful) {visit : Visit}
    (hhistory : c'.history = c.history) (hfits : visit.Fits c.stage)
    (hshows : c'.ShowsStage (c.stage.next visit)) : (c'.note visit).Faithful where
  shows := by
    have hstage : c'.stage = c.stage := congrArg Stage.after hhistory
    rw [stage_note, hstage]
    exact hshows
  fits earlier other hprefix := by
    rcases List.prefix_concat_iff.mp hprefix with heq | hold
    · obtain ⟨rfl, rfl⟩ : earlier = c'.history ∧ other = visit := by
        simpa using List.append_inj' heq rfl
      rw [hhistory]
      exact hfits
    · rw [hhistory] at hold
      exact hc.fits earlier other hold

/-- A delivery that does not find the handler is noted and dropped. -/
theorem Faithful.takeOut_of_not_idle {c : Continuation h} (hc : c.Faithful)
    (hstage : c.stage ≠ .idle) (outcome : Outcome) (terminal : Bool) :
    c.takeOut outcome terminal = (none, c.note (.arrival outcome terminal false)) := by
  have hshows := hc.shows
  rw [Continuation.takeOut]
  cases hcase : c.stage with
  | idle => exact absurd hcase hstage
  | busy busyWith =>
    rw [hcase] at hshows
    rw [hshows.1]
  | ended =>
    rw [hcase] at hshows
    rw [hshows.1]

/-- The handler is there just in the idle stage. A delivery that finds it begins a call; one that
does not changes no stage. -/
theorem Faithful.takeOut {c : Continuation h} (hc : c.Faithful) (outcome : Outcome)
    (terminal : Bool) :
    (c.takeOut outcome terminal).2.Faithful ∧
      (c.takeOut outcome terminal).2.ends = c.ends + (if terminal then 1 else 0) ∧
      match (c.takeOut outcome terminal).1 with
      | some _ => c.stage = .idle ∧ (c.takeOut outcome terminal).2.stage = .busy terminal
      | none => c.stage ≠ .idle ∧ (c.takeOut outcome terminal).2.stage = c.stage := by
  by_cases hidle : c.stage = .idle
  · have hshows := hc.shows
    rw [hidle] at hshows
    obtain ⟨⟨handler, hslot⟩, hfinished⟩ := hshows
    rw [Continuation.takeOut, hslot]
    refine ⟨hc.note rfl ?_ ?_, ends_note _ _, hidle, ?_⟩
    · exact iff_of_true rfl hidle
    · rw [hidle]
      exact ⟨rfl, hfinished⟩
    · rw [stage_note]
      change (c.stage).next _ = _
      rw [hidle]
      rfl
  · rw [hc.takeOut_of_not_idle hidle]
    refine ⟨hc.note rfl ?_ ?_, ends_note _ _, hidle, ?_⟩
    · exact iff_of_false nofun hidle
    · rw [Stage.next_dropped]
      exact hc.shows
    · rw [stage_note, Stage.next_dropped]

/-- A call that returns ends the continuation if it was terminal, and leaves it idle if not. -/
theorem Faithful.putBack {c : Continuation h} (hc : c.Faithful) {terminal : Bool}
    (hstage : c.stage = .busy terminal) (handler : h) :
    (c.putBack terminal handler).Faithful ∧
      (c.putBack terminal handler).ends = c.ends ∧
      (c.putBack terminal handler).stage = Stage.afterCall terminal := by
  have hshows := hc.shows
  rw [hstage] at hshows
  have hfits : Visit.returned.Fits c.stage := ⟨terminal, hstage⟩
  have hnext : c.stage.next .returned = Stage.afterCall terminal := by
    rw [hstage]
    rfl
  cases terminal with
  | true =>
    refine ⟨hc.note rfl hfits ?_, ends_note _ _, ?_⟩
    · rw [hnext]
      exact ⟨rfl, rfl⟩
    · exact (stage_note _ _).trans hnext
  | false =>
    refine ⟨hc.note rfl hfits ?_, ends_note _ _, ?_⟩
    · rw [hnext]
      exact ⟨⟨handler, rfl⟩, hshows.2⟩
    · exact (stage_note _ _).trans hnext

/-- No delivery arrives during a call. -/
def NeverReentered (c : Continuation h) : Prop :=
  ∀ earlier outcome terminal called,
    earlier ++ [.arrival outcome terminal called] <+: c.history →
      ∀ busyWith, Stage.after earlier ≠ .busy busyWith

/-- Every delivery that arrives before the end calls the handler. Whenever the job of a terminal
delivery is over, because its call has returned or because it made none, it did call the handler
and the end has come. -/
structure LosesNothing (c : Continuation h) : Prop where
  calls : ∀ earlier outcome terminal called,
    earlier ++ [.arrival outcome terminal called] <+: c.history →
      Stage.after earlier ≠ .ended → called = true
  ends : ∀ earlier outcome called later,
    earlier ++ .arrival outcome true called :: later <+: c.history →
      (called = true → .returned ∈ later) →
        called = true ∧ Stage.after (earlier ++ .arrival outcome true called :: later) = .ended

/-- The continuation is not in the middle of a call: either its handler waits, or it is finished
and the handler is dropped. -/
def Settled (c : Continuation h) : Prop :=
  c.stage = .idle ∧ c.finished = false ∧ c.isReleased = false ∨
    c.stage = .ended ∧ c.finished = true ∧ c.isReleased = true

theorem Faithful.settled {c : Continuation h} (hc : c.Faithful)
    (hidle : ∀ terminal, c.stage ≠ .busy terminal) : c.Settled := by
  have hshows := hc.shows
  cases hstage : c.stage with
  | idle =>
    rw [hstage] at hshows
    obtain ⟨⟨handler, hslot⟩, hfinished⟩ := hshows
    exact Or.inl ⟨hstage, hfinished, by rw [isReleased, hslot]⟩
  | busy terminal => exact absurd hstage (hidle terminal)
  | ended =>
    rw [hstage] at hshows
    obtain ⟨hslot, hfinished⟩ := hshows
    exact Or.inr ⟨hstage, hfinished, by rw [isReleased, hslot]⟩

/-- What gets at most one terminal delivery loses nothing if and only if it is never reentered. -/
theorem Faithful.losesNothing_iff {c : Continuation h} (hc : c.Faithful) (hone : c.ends ≤ 1) :
    c.LosesNothing ↔ c.NeverReentered := by
  constructor
  · intro hloses earlier outcome terminal called hprefix busyWith hbusy
    have hcalled := hloses.calls earlier outcome terminal called hprefix (by rw [hbusy]; nofun)
    have hidle := (hc.fits earlier _ hprefix).mp hcalled
    rw [hbusy] at hidle
    cases hidle
  · intro hnever
    constructor
    · intro earlier outcome terminal called hprefix hended
      refine (hc.fits earlier _ hprefix).mpr ?_
      cases hstage : Stage.after earlier with
      | idle => rfl
      | busy busyWith => exact absurd hstage (hnever earlier outcome terminal called hprefix _)
      | ended => exact absurd hstage hended
    · intro earlier outcome called later hprefix hreturned
      have harrival : earlier ++ [.arrival outcome true called] <+: c.history := by
        refine List.IsPrefix.trans ?_ hprefix
        exact List.prefix_append_right_inj earlier |>.mpr (by simp)
      have hidle : Stage.after earlier = .idle := by
        cases hstage : Stage.after earlier with
        | idle => rfl
        | busy busyWith => exact absurd hstage (hnever earlier outcome true called harrival _)
        | ended =>
          have hbefore := Stage.isEnd_of_after (Or.inl hstage)
          have hcount := (harrival.sublist).countP_le (p := Visit.isEnd)
          rw [List.countP_append] at hcount
          simp [Visit.isEnd] at hcount
          rw [ends] at hone
          omega
      have hcalled := (hc.fits earlier _ harrival).mpr hidle
      refine ⟨hcalled, ?_⟩
      rw [Stage.after_append, List.foldl_cons, hidle, hcalled]
      exact Stage.foldl_busy_of_returned (hreturned hcalled)

end Continuation
end Switchboard
