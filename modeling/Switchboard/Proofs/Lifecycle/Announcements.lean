import Mathlib.Data.List.Basic
import Switchboard.Lifecycle
/-!
# Announcements follow the phases

The listener of a run should learn of every phase that was entered, once and in order. A stop
announces its phase only after the teardown. So the announcements follow the phases as long as the
teardown that runs neither acknowledges the stop itself nor panics, and no longer.
-/
namespace Switchboard

/-- The announcements of a whole run. -/
def PhaseEvent.order : List PhaseEvent := [.started, .stopping, .stopped, .deinited]

/-- Announcing one phase after another makes up the order. -/
theorem PhaseEvent.order_take_rank (event : PhaseEvent) :
    order.take event.phase.rank = order.take (event.phase.rank - 1) ++ [event] := by
  cases event <;> rfl

theorem PhaseEvent.count_order_take (event : PhaseEvent) (n : Nat) :
    (order.take n).count event = if event.phase.rank ≤ n then 1 else 0 := by
  rcases n with _ | _ | _ | _ | n <;> cases event <;> simp [order, phase, Phase.rank]

theorem Phase.rank_inj {p q : Phase} : p.rank = q.rank ↔ p = q := by
  cases p <;> cases q <;> decide

theorem Lifecycle.phase_announce (l : Lifecycle) (event : PhaseEvent) :
    (l.announce event).phase = l.phase := by
  rw [announce]
  split
  · rfl
  · rfl

namespace PhaseScene

/-- What the lifecycle was at every moment until now. -/
def moments (s : PhaseScene) : List Lifecycle := s.past ++ [s.lifecycle]

/-- The run is in a phase or was in it. -/
def Reached (s : PhaseScene) (p : Phase) : Prop := ∃ l ∈ s.moments, l.phase = p

instance (s : PhaseScene) (p : Phase) : Decidable (s.Reached p) :=
  inferInstanceAs (Decidable (∃ l ∈ s.moments, l.phase = p))

/-- Exactly the phases that were reached are announced, each once. -/
def InStep (s : PhaseScene) : Prop :=
  ∀ event : PhaseEvent, s.lifecycle.announced.count event = if s.Reached event.phase then 1 else 0

/-- The scene after some acts, whose panics are caught. -/
def afterAll (s : PhaseScene) (acts : List PhaseAct) : PhaseScene :=
  acts.foldl (fun s act => (act.perform.run s).2) s

/-- The announcements come in order at all moments of some acts, and are in step with the phases
whenever no act is under way. -/
def Follows (s : PhaseScene) (acts : List PhaseAct) : Prop :=
  (∀ l ∈ (s.afterAll acts).moments, l.announced <+: PhaseEvent.order) ∧
    ∀ n, (s.afterAll (acts.take n)).InStep

@[simp] theorem moments_moveTo (s : PhaseScene) (l : Lifecycle) :
    (s.moveTo l).moments = s.moments ++ [l] := rfl

theorem lifecycle_mem_moments (s : PhaseScene) : s.lifecycle ∈ s.moments := by simp [moments]

/-- Nothing was changed, though moments may have passed. -/
structure Still (s s' : PhaseScene) : Prop where
  lifecycle : s'.lifecycle = s.lifecycle
  moments : ∀ l, l ∈ s'.moments ↔ l ∈ s.moments

theorem Still.refl (s : PhaseScene) : Still s s := ⟨rfl, fun _ => Iff.rfl⟩

theorem Still.trans {s s' s'' : PhaseScene} (h : Still s s') (h' : Still s' s'') : Still s s'' :=
  ⟨h'.lifecycle.trans h.lifecycle, fun l => (h'.moments l).trans (h.moments l)⟩

/-- A step that leaves the lifecycle as it is. -/
theorem still_moveTo (s : PhaseScene) : Still s (s.moveTo s.lifecycle) where
  lifecycle := rfl
  moments l := by
    simp only [moments_moveTo, List.mem_append, List.mem_singleton, or_iff_left_iff_imp]
    rintro rfl
    exact s.lifecycle_mem_moments

/-- A record changes no lifecycle. -/
theorem still_note (s : PhaseScene) (entry : TeardownEntry) :
    Still s ((note entry).run s).2 := ⟨rfl, fun _ => Iff.rfl⟩

/-- The announcements are those of the phases up to the present one, and always were in order. -/
structure OnTrack (s : PhaseScene) : Prop where
  listening : s.lifecycle.listening = true
  announced : s.lifecycle.announced = PhaseEvent.order.take s.lifecycle.phase.rank
  ordered : ∀ l ∈ s.moments, l.announced <+: PhaseEvent.order
  reached : ∀ p, s.Reached p ↔ p.rank ≤ s.lifecycle.phase.rank

theorem onTrack_new : OnTrack {} where
  listening := rfl
  announced := rfl
  ordered l hl := by
    rw [List.mem_singleton.mp hl]
    exact List.nil_prefix
  reached p := by cases p <;> decide

theorem OnTrack.inStep {s : PhaseScene} (h : s.OnTrack) : s.InStep := by
  intro event
  simp only [h.announced, PhaseEvent.count_order_take, h.reached]

theorem OnTrack.still {s s' : PhaseScene} (h : s.OnTrack) (hs : Still s s') : s'.OnTrack where
  listening := by rw [hs.lifecycle, h.listening]
  announced := by rw [hs.lifecycle, h.announced]
  ordered l hl := h.ordered l ((hs.moments l).mp hl)
  reached p := by
    rw [hs.lifecycle, ← h.reached p]
    simp only [Reached, hs.moments]

/-- Entering the next phase and announcing it keeps the track, also if the phase was entered some
moments before it is announced. -/
theorem OnTrack.enter {s s' : PhaseScene} (h : s.OnTrack) (event : PhaseEvent)
    (hnext : event.phase.rank = s.lifecycle.phase.rank + 1)
    (hlife : s'.lifecycle = { s.lifecycle with phase := event.phase }.announce event)
    (hold : s.moments ⊆ s'.moments)
    (hnew : ∀ l ∈ s'.moments, l ∈ s.moments ∨
      l = { s.lifecycle with phase := event.phase } ∨ l = s'.lifecycle) : s'.OnTrack := by
  have hannounced : PhaseEvent.order.take event.phase.rank = s.lifecycle.announced ++ [event] := by
    rw [PhaseEvent.order_take_rank, hnext, Nat.add_sub_cancel, h.announced]
  have hlife' : s'.lifecycle =
      { s.lifecycle with phase := event.phase, announced := s.lifecycle.announced ++ [event] } := by
    rw [hlife, Lifecycle.announce, if_pos h.listening]
  constructor
  · rw [hlife', h.listening]
  · rw [hlife', hannounced]
  · intro l hl
    rcases hnew l hl with hl | rfl | rfl
    · exact h.ordered l hl
    · exact h.ordered s.lifecycle s.lifecycle_mem_moments
    · rw [hlife', ← hannounced]
      exact List.take_prefix _ _
  · intro p
    have hrank : s'.lifecycle.phase.rank = s.lifecycle.phase.rank + 1 := by rw [hlife', hnext]
    constructor
    · rintro ⟨l, hl, rfl⟩
      rcases hnew l hl with hl | rfl | rfl
      · have := (h.reached l.phase).mp ⟨l, hl, rfl⟩
        omega
      · exact Nat.le_of_eq (hnext.trans hrank.symm)
      · exact Nat.le_refl _
    · intro hp
      rcases Nat.lt_or_eq_of_le hp with hlt | heq
      · obtain ⟨l, hl, hlp⟩ := (h.reached p).mpr (by omega)
        exact ⟨l, hold hl, hlp⟩
      · exact ⟨s'.lifecycle, s'.lifecycle_mem_moments, (Phase.rank_inj.mp heq).symm⟩

end PhaseScene

namespace PhaseAct

open PhaseScene

/-- The only phase in which an act changes the lifecycle. -/
def source? : PhaseAct → Option Phase
  | .startDone => some .created
  | .stopDone => some .stopping
  | .deinitDone => some .stopped
  | .beginStop _ => some .started
  | .panic _ => none

/-- An act that changes nothing about a run that is stopping. -/
def isHarmless : PhaseAct → Bool
  | .stopDone | .panic _ => false
  | .startDone | .deinitDone | .beginStop _ => true

theorem run_step {α : Type} (f : Lifecycle → α × Lifecycle) (s : PhaseScene) :
    (lifecyclePlace.step f).run s = ((f s.lifecycle).1, s.moveTo (f s.lifecycle).2) := rfl

/-- The teardown of a stop. -/
def teardown? : PhaseAct → Option (List PhaseAct)
  | .beginStop teardown => some teardown
  | .startDone | .stopDone | .deinitDone | .panic _ => none

/-- The teardown that runs: that of the first stop after the first start. -/
def runningTeardown? : List PhaseAct → Option (List PhaseAct)
  | [] => none
  | .startDone :: acts => acts.findSome? teardown?
  | _ :: acts => runningTeardown? acts

/-- A stop outside the started phase runs no teardown. -/
theorem run_beginStop_of_ne {s : PhaseScene} (h : s.lifecycle.phase ≠ .started)
    (teardown : List PhaseAct) :
    ∃ answer, (beginStop teardown).perform.run s = (.ok answer, s.moveTo s.lifecycle) := by
  cases hp : s.lifecycle.phase with
  | started => exact absurd hp h
  | created | stopping | stopped | deinited =>
    rw [perform, Lifecycle.beginStop, run_bind, run_bind, run_step, Lifecycle.enterStopping, hp]
    exact ⟨_, rfl⟩

/-- A started run enters the stopping phase. -/
def entering (s : PhaseScene) : PhaseScene := s.moveTo { s.lifecycle with phase := .stopping }

/-- The scene in which the teardown of a stop begins. -/
def teardownScene (s : PhaseScene) : PhaseScene := ((note (.phase .stopping)).run (entering s)).2

/-- The phase is announced if the teardown came to its end. -/
def afterTeardown {ε : Type} : Except ε Unit × PhaseScene → PhaseScene
  | (.error _, s) => s
  | (.ok (), s) => s.moveTo (s.lifecycle.announce .stopping)

theorem snd_run_beginStop {ε : Type} (teardown : StateM PhaseScene (Except ε Unit))
    {s : PhaseScene} (h : s.lifecycle.phase = .started) :
    ((Lifecycle.beginStop lifecyclePlace teardown).run s).2 =
      afterTeardown (teardown.run (entering s)) := by
  have henter : (lifecyclePlace.step Lifecycle.enterStopping).run s = (.ok true, entering s) := by
    rw [run_step, Lifecycle.enterStopping, h]
    rfl
  rw [Lifecycle.beginStop, run_bind, henter]
  change ((teardown >>= _).run (entering s)).2 = _
  rw [run_bind]
  rcases teardown.run (entering s) with ⟨_ | _, s'⟩
  · rfl
  · rfl

/-- A stop of a started run enters the phase, performs the teardown, and announces the phase if
the teardown came to its end. -/
theorem run_beginStop {s : PhaseScene} (h : s.lifecycle.phase = .started)
    (teardown : List PhaseAct) :
    ((beginStop teardown).perform.run s).2 =
      afterTeardown ((performAll teardown).run (teardownScene s)) := by
  rw [perform, run_bind]
  change ((Lifecycle.beginStop lifecyclePlace _).run s).2 = _
  rw [snd_run_beginStop _ h]
  rfl

/-- In any other phase an act is refused. -/
theorem still_of_ne_source {act : PhaseAct} {s : PhaseScene}
    (h : act.source? ≠ some s.lifecycle.phase) : Still s (act.perform.run s).2 := by
  have hrefused (source : Phase) (event : PhaseEvent) (operation : String)
      (hne : s.lifecycle.phase ≠ source) :
      Still s (s.moveTo (s.lifecycle.advance source event operation).2) := by
    rw [Lifecycle.advance, if_neg hne]
    exact still_moveTo s
  cases act with
  | startDone => exact hrefused .created .started _ fun hp => h (congrArg some hp.symm)
  | stopDone => exact hrefused .stopping .stopped _ fun hp => h (congrArg some hp.symm)
  | deinitDone => exact hrefused .stopped .deinited _ fun hp => h (congrArg some hp.symm)
  | beginStop teardown =>
    obtain ⟨answer, hrun⟩ :=
      run_beginStop_of_ne (fun hp => h (congrArg some hp.symm)) teardown
    rw [hrun]
    exact still_moveTo s
  | panic p => exact Still.refl s

/-- The acts of a teardown come one after another, up to the first panic. -/
theorem run_performAll_cons (act : PhaseAct) (acts : List PhaseAct) (s : PhaseScene) :
    (performAll (act :: acts)).run s =
      match act.perform.run s with
      | (.error p, s') => (.error p, s')
      | (.ok answer, s') => (performAll acts).run ((note (.answer answer)).run s').2 := by
  rw [performAll, run_bind]
  rcases act.perform.run s with ⟨_ | _, s'⟩
  · rfl
  · rfl

/-- What comes after a teardown takes no moment back. -/
theorem moments_afterTeardown {ε : Type} (r : Except ε Unit × PhaseScene) :
    r.2.moments ⊆ (afterTeardown r).moments := by
  rcases r with ⟨_ | _, s⟩
  · exact List.Subset.refl _
  · exact List.subset_append_left _ _

mutual

/-- An act takes no moment back. -/
theorem moments_perform (act : PhaseAct) (s : PhaseScene) :
    s.moments ⊆ (act.perform.run s).2.moments := by
  match act with
  | .startDone => exact List.subset_append_left _ _
  | .stopDone => exact List.subset_append_left _ _
  | .deinitDone => exact List.subset_append_left _ _
  | .panic p => exact List.Subset.refl _
  | .beginStop teardown =>
    by_cases h : s.lifecycle.phase = .started
    · have hbegin : s.moments ⊆ (teardownScene s).moments := List.subset_append_left _ _
      have hteardown := moments_performAll teardown (teardownScene s)
      rw [run_beginStop h]
      exact List.Subset.trans hbegin (List.Subset.trans hteardown (moments_afterTeardown _))
    · obtain ⟨answer, hrun⟩ := run_beginStop_of_ne h teardown
      rw [hrun]
      exact List.subset_append_left _ _

/-- Acts take no moment back. -/
theorem moments_performAll (acts : List PhaseAct) (s : PhaseScene) :
    s.moments ⊆ ((performAll acts).run s).2.moments := by
  match acts with
  | [] => exact List.Subset.refl _
  | act :: acts =>
    have hfirst := moments_perform act s
    rw [run_performAll_cons]
    split
    · next p s' hrun => rwa [hrun] at hfirst
    · next answer s' hrun =>
      rw [hrun] at hfirst
      exact List.Subset.trans hfirst (moments_performAll acts ((note (.answer answer)).run s').2)

end

/-- A harmless act of a teardown does not panic and changes nothing. -/
theorem run_of_harmless {act : PhaseAct} (h : act.isHarmless = true) {s : PhaseScene}
    (hs : s.lifecycle.phase = .stopping) :
    ∃ answer s', act.perform.run s = (.ok answer, s') ∧ Still s s' := by
  have hstill : Still s (act.perform.run s).2 := by
    apply still_of_ne_source
    rw [hs]
    cases act <;> simp_all [source?, isHarmless]
  obtain ⟨answer, s', hrun⟩ : ∃ answer s', act.perform.run s = (.ok answer, s') := by
    cases act with
    | startDone | deinitDone => exact ⟨_, _, rfl⟩
    | stopDone | panic p => cases h
    | beginStop teardown =>
      obtain ⟨answer, hrun⟩ := run_beginStop_of_ne (by rw [hs]; decide) teardown
      exact ⟨answer, _, hrun⟩
  rw [hrun] at hstill
  exact ⟨answer, s', hrun, hstill⟩

/-- A harmless teardown comes to its end and changes nothing. -/
theorem run_performAll_of_harmless {acts : List PhaseAct}
    (h : ∀ act ∈ acts, act.isHarmless = true) {s : PhaseScene}
    (hs : s.lifecycle.phase = .stopping) :
    ∃ s', (performAll acts).run s = (.ok (), s') ∧ Still s s' := by
  induction acts generalizing s with
  | nil => exact ⟨s, rfl, Still.refl s⟩
  | cons act acts ih =>
    obtain ⟨answer, s', hrun, hstill⟩ := run_of_harmless (h act List.mem_cons_self) hs
    have hnote := still_note s' (.answer answer)
    obtain ⟨s'', hrun', hstill'⟩ := ih (s := ((note (.answer answer)).run s').2)
      (fun a ha => h a (List.mem_cons_of_mem act ha))
      (by rw [(hstill.trans hnote).lifecycle, hs])
    refine ⟨s'', ?_, (hstill.trans hnote).trans hstill'⟩
    rw [run_performAll_cons, hrun]
    exact hrun'

/-- A teardown that is not harmless acknowledges the stop before it is announced, or panics and
changes nothing. -/
theorem run_performAll_of_harmful {acts : List PhaseAct}
    (h : ¬ ∀ act ∈ acts, act.isHarmless = true) {s : PhaseScene}
    (hs : s.lifecycle.phase = .stopping) (hl : s.lifecycle.listening = true) :
    (∃ l ∈ ((performAll acts).run s).2.moments,
      l.announced = s.lifecycle.announced ++ [.stopped]) ∨
    ∃ p s', (performAll acts).run s = (.error p, s') ∧ Still s s' := by
  induction acts generalizing s with
  | nil => exact absurd (fun act ha => absurd ha List.not_mem_nil) h
  | cons act acts ih =>
    by_cases hact : act.isHarmless = true
    · obtain ⟨answer, s', hrun, hstill⟩ := run_of_harmless hact hs
      have hnote := hstill.trans (still_note s' (.answer answer))
      have hrest : ¬ ∀ a ∈ acts, a.isHarmless = true := fun hall =>
        h (List.forall_mem_cons.mpr ⟨hact, hall⟩)
      rw [run_performAll_cons, hrun]
      rcases ih hrest (s := ((note (.answer answer)).run s').2)
        (by rw [hnote.lifecycle, hs]) (by rw [hnote.lifecycle, hl]) with
        ⟨l, hmem, hann⟩ | ⟨p, s'', hrun', hstill'⟩
      · exact Or.inl ⟨l, hmem, by rw [hann, hnote.lifecycle]⟩
      · exact Or.inr ⟨p, s'', hrun', hnote.trans hstill'⟩
    · cases act with
      | startDone | deinitDone | beginStop teardown => exact absurd rfl hact
      | panic p => exact Or.inr ⟨p, s, rfl, Still.refl s⟩
      | stopDone =>
        refine Or.inl ⟨(s.lifecycle.stopDone).2, ?_, ?_⟩
        · rw [run_performAll_cons]
          exact moments_performAll acts _ (lifecycle_mem_moments _)
        · simp [Lifecycle.stopDone, Lifecycle.advance, hs, Lifecycle.announce, hl]

end PhaseAct

namespace PhaseScene

open PhaseAct

/-- A phase that is acknowledged when it may be is entered and announced. -/
theorem OnTrack.acknowledge {s : PhaseScene} (h : s.OnTrack) (act : PhaseAct)
    (hsource : act.source? = some s.lifecycle.phase) (hstop : s.lifecycle.phase ≠ .started) :
    (act.perform.run s).2.OnTrack ∧
      (act.perform.run s).2.lifecycle.phase.rank = s.lifecycle.phase.rank + 1 := by
  have henter (source : Phase) (event : PhaseEvent) (operation : String)
      (hp : s.lifecycle.phase = source) (hnext : event.phase.rank = source.rank + 1) :
      (s.moveTo (s.lifecycle.advance source event operation).2).OnTrack ∧
        (s.lifecycle.advance source event operation).2.phase.rank =
          s.lifecycle.phase.rank + 1 := by
    rw [Lifecycle.advance, if_pos hp]
    refine ⟨h.enter event (by rw [hnext, hp]) rfl (List.subset_append_left _ _) ?_, ?_⟩
    · intro l hl
      rw [moments_moveTo, List.mem_append, List.mem_singleton] at hl
      exact hl.imp_right Or.inr
    · rw [hp, ← hnext, Lifecycle.announce]
      split <;> rfl
  cases act with
  | startDone => exact henter .created .started _ (Option.some.inj hsource).symm rfl
  | stopDone => exact henter .stopping .stopped _ (Option.some.inj hsource).symm rfl
  | deinitDone => exact henter .stopped .deinited _ (Option.some.inj hsource).symm rfl
  | beginStop teardown => exact absurd (Option.some.inj hsource).symm hstop
  | panic p => cases hsource

/-- A stop whose teardown is harmless enters its phase and announces it. -/
theorem OnTrack.stop {s : PhaseScene} (h : s.OnTrack) (hp : s.lifecycle.phase = .started)
    {teardown : List PhaseAct} (hharmless : ∀ act ∈ teardown, act.isHarmless = true) :
    ((beginStop teardown).perform.run s).2.OnTrack ∧
      ((beginStop teardown).perform.run s).2.lifecycle.phase = .stopping := by
  obtain ⟨s', hrun, hstill⟩ := run_performAll_of_harmless hharmless (s := teardownScene s) rfl
  rw [run_beginStop hp, hrun]
  have hlife : s'.lifecycle = { s.lifecycle with phase := .stopping } := hstill.lifecycle
  have hlast : (afterTeardown ((.ok (), s') : Except Panic Unit × PhaseScene)).lifecycle =
      { s.lifecycle with phase := .stopping }.announce .stopping :=
    congrArg (Lifecycle.announce · .stopping) hlife
  refine ⟨h.enter .stopping (by rw [hp]; rfl) hlast ?_ ?_, ?_⟩
  · intro l hl
    refine moments_afterTeardown ((.ok (), s') : Except Panic Unit × PhaseScene) ((hstill.moments l).mpr ?_)
    exact List.mem_append_left _ hl
  · intro l hl
    rcases List.mem_append.mp hl with hl | hl
    · rcases List.mem_append.mp ((hstill.moments l).mp hl) with hl | hl
      · exact Or.inl hl
      · exact Or.inr (Or.inl (List.mem_singleton.mp hl))
    · exact Or.inr (Or.inr (List.mem_singleton.mp hl))
  · rw [hlast, Lifecycle.announce]
    split <;> rfl

/-- A stop whose teardown is not harmless leaves the announcements out of order or out of step. -/
theorem OnTrack.stop_harmful {s : PhaseScene} (h : s.OnTrack) (hp : s.lifecycle.phase = .started)
    {teardown : List PhaseAct} (hharmful : ¬ ∀ act ∈ teardown, act.isHarmless = true) :
    (∃ l ∈ ((beginStop teardown).perform.run s).2.moments, ¬ l.announced <+: PhaseEvent.order) ∨
      ¬ ((beginStop teardown).perform.run s).2.InStep := by
  have hannounced : s.lifecycle.announced = [.started] := by rw [h.announced, hp]; rfl
  rcases run_performAll_of_harmful hharmful (s := teardownScene s) rfl h.listening with
    ⟨l, hmem, hann⟩ | ⟨p, s', hrun, hstill⟩
  · refine Or.inl ⟨l, ?_, ?_⟩
    · rw [run_beginStop hp]
      exact moments_afterTeardown _ hmem
    · rw [hann]
      change ¬ s.lifecycle.announced ++ [.stopped] <+: PhaseEvent.order
      rw [hannounced]
      decide
  · refine Or.inr fun hstep => ?_
    rw [run_beginStop hp, hrun] at hstep
    have hreached : s'.Reached .stopping := by
      refine ⟨s'.lifecycle, s'.lifecycle_mem_moments, ?_⟩
      rw [hstill.lifecycle]
      rfl
    have hcount : [PhaseEvent.started].count .stopping = 1 := by
      rw [← hannounced, ← if_pos (t := 1) (e := 0) hreached]
      have := hstep .stopping
      rwa [afterTeardown, hstill.lifecycle] at this
    exact absurd hcount (by decide)

/-- Acts follow the phases if the scene is in step before the first, and the others follow after
it. -/
theorem follows_cons (s : PhaseScene) (act : PhaseAct) (acts : List PhaseAct) :
    s.Follows (act :: acts) ↔ s.InStep ∧ (act.perform.run s).2.Follows acts := by
  constructor
  · rintro ⟨hordered, hstep⟩
    exact ⟨hstep 0, hordered, fun n => hstep (n + 1)⟩
  · rintro ⟨hfirst, hordered, hstep⟩
    refine ⟨hordered, fun n => ?_⟩
    cases n with
    | zero => exact hfirst
    | succ n => exact hstep n

/-- No act takes a moment back. -/
theorem moments_afterAll (s : PhaseScene) (acts : List PhaseAct) :
    s.moments ⊆ (s.afterAll acts).moments := by
  induction acts generalizing s with
  | nil => exact List.Subset.refl _
  | cons act acts ih => exact List.Subset.trans (moments_perform act s) (ih _)

/-- What is out of order or out of step is so for good. -/
theorem Follows.now {s : PhaseScene} {acts : List PhaseAct} (h : s.Follows acts) :
    (∀ l ∈ s.moments, l.announced <+: PhaseEvent.order) ∧ s.InStep :=
  ⟨fun l hl => h.1 l (moments_afterAll s acts hl), h.2 0⟩

/-- Nothing goes wrong once the run is stopping and on its track. -/
theorem OnTrack.follows_of_stopping {s : PhaseScene} (h : s.OnTrack)
    (hrank : Phase.stopping.rank ≤ s.lifecycle.phase.rank) (acts : List PhaseAct) :
    s.Follows acts := by
  induction acts generalizing s with
  | nil => exact ⟨h.ordered, fun n => by rw [List.take_nil]; exact h.inStep⟩
  | cons act acts ih =>
    refine (follows_cons s act acts).mpr ⟨h.inStep, ?_⟩
    by_cases hsource : act.source? = some s.lifecycle.phase
    · have hne : s.lifecycle.phase ≠ .started := by
        rintro hp
        rw [hp] at hrank
        exact absurd hrank (by decide)
      obtain ⟨htrack, hnext⟩ := h.acknowledge act hsource hne
      exact ih htrack (by omega)
    · have hstill := still_of_ne_source hsource
      exact ih (h.still hstill) (by rw [hstill.lifecycle]; exact hrank)

/-- Until a started run is stopped, nothing goes wrong; then the teardown decides. -/
theorem OnTrack.follows_iff_of_started {s : PhaseScene} (h : s.OnTrack)
    (hp : s.lifecycle.phase = .started) (acts : List PhaseAct) :
    s.Follows acts ↔ ∀ teardown, acts.findSome? PhaseAct.teardown? = some teardown →
      ∀ act ∈ teardown, act.isHarmless = true := by
  induction acts generalizing s with
  | nil =>
    have hnow : s.Follows [] := ⟨h.ordered, fun n => by rw [List.take_nil]; exact h.inStep⟩
    exact iff_of_true hnow fun teardown hnone => nomatch hnone
  | cons act acts ih =>
    rw [follows_cons, List.findSome?_cons]
    cases hteardown : act.teardown? with
    | none =>
      have hstill : Still s (act.perform.run s).2 := by
        apply still_of_ne_source
        rw [hp]
        cases act <;> simp_all [source?, teardown?]
      rw [ih (h.still hstill) (by rw [hstill.lifecycle, hp])]
      exact and_iff_right h.inStep
    | some teardown =>
      obtain rfl : act = .beginStop teardown := by
        cases act <;> simp_all [teardown?]
      simp only [Option.some.injEq, forall_eq']
      by_cases hharmless : ∀ act ∈ teardown, act.isHarmless = true
      · obtain ⟨htrack, hstopping⟩ := h.stop hp hharmless
        have hfollows := htrack.follows_of_stopping (Nat.le_of_eq (by rw [hstopping])) acts
        exact ⟨fun _ => hharmless, fun _ => ⟨h.inStep, hfollows⟩⟩
      · refine ⟨fun hfollows => ?_, fun hall => absurd hall hharmless⟩
        obtain ⟨hordered, hstep⟩ := hfollows.2.now
        rcases h.stop_harmful hp hharmless with ⟨l, hmem, hnot⟩ | hnot
        · exact absurd (hordered l hmem) hnot
        · exact absurd hstep hnot

/-- Until a new run is started, nothing goes wrong. -/
theorem OnTrack.follows_iff_of_created {s : PhaseScene} (h : s.OnTrack)
    (hp : s.lifecycle.phase = .created) (acts : List PhaseAct) :
    s.Follows acts ↔ ∀ teardown, PhaseAct.runningTeardown? acts = some teardown →
      ∀ act ∈ teardown, act.isHarmless = true := by
  induction acts generalizing s with
  | nil =>
    have hnow : s.Follows [] := ⟨h.ordered, fun n => by rw [List.take_nil]; exact h.inStep⟩
    exact iff_of_true hnow fun teardown hnone => nomatch hnone
  | cons act acts ih =>
    rw [follows_cons, and_iff_right h.inStep]
    by_cases hsource : act.source? = some .created
    · obtain rfl : act = .startDone := by
        cases act <;> simp_all [source?]
      obtain ⟨htrack, hnext⟩ := h.acknowledge .startDone (by rw [hp]; rfl) (by rw [hp]; decide)
      rw [hp] at hnext
      exact htrack.follows_iff_of_started (Phase.rank_inj.mp hnext) acts
    · have hstill : Still s (act.perform.run s).2 := by
        apply still_of_ne_source
        rwa [hp]
      rw [ih (h.still hstill) (by rw [hstill.lifecycle, hp])]
      have hskip : runningTeardown? (act :: acts) = runningTeardown? acts := by
        cases act with
        | startDone => exact absurd rfl hsource
        | stopDone | deinitDone | beginStop teardown | panic p => rfl
      rw [hskip]

/-- The announcements of a new run follow its phases, whatever is done to it, if and only if the
teardown that runs, if one does, neither acknowledges the stop nor panics. -/
theorem announcements_follow_iff (acts : List PhaseAct) :
    ({} : PhaseScene).Follows acts ↔
      ∀ teardown, PhaseAct.runningTeardown? acts = some teardown →
        ∀ act ∈ teardown, act.isHarmless = true :=
  onTrack_new.follows_iff_of_created rfl acts

/-- A teardown that acknowledges the stop has it announced before the stopping itself. -/
theorem not_follows_of_early_acknowledgement :
    ¬ ({} : PhaseScene).Follows [.startDone, .beginStop [.stopDone]] := by
  intro h
  have hlast : (({} : PhaseScene).afterAll [.startDone, .beginStop [.stopDone]]).lifecycle =
      { phase := .stopped, announced := [.started, .stopped, .stopping] } := rfl
  have hordered := h.1 _ (lifecycle_mem_moments _)
  rw [hlast] at hordered
  exact absurd hordered (by decide)

end PhaseScene

end Switchboard
