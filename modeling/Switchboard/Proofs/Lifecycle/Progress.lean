import Mathlib.Data.List.Nodup
import Switchboard.Proofs.Lifecycle.Announcements
/-!
# A run only moves forward

Whatever is called on a lifecycle, from outside or in the middle of a teardown, the run enters its
phases in their order, each once. An acknowledgement is refused in every phase but one, and a
refusal changes nothing. One teardown runs at most, that of the stop which finds the run started.
-/
namespace Switchboard

/-- The phases that are entered by a history of phases. -/
def Phase.entries : List Phase → List Phase
  | p :: q :: rest => if p = q then entries (q :: rest) else q :: entries (q :: rest)
  | [] | [_] => []

theorem Phase.entries_concat (history : List Phase) (p q : Phase) :
    entries (history ++ [p] ++ [q]) = entries (history ++ [p]) ++ if p = q then [] else [q] := by
  induction history with
  | nil =>
    by_cases h : p = q
    · simp [entries, h]
    · simp [entries, h]
  | cons first history ih =>
    cases history with
    | nil =>
      by_cases h : first = p
      · simp_all [entries]
      · simp_all [entries]
    | cons second rest =>
      simp only [List.cons_append, entries] at ih ⊢
      rw [ih]
      split
      · rfl
      · rfl

/-- The phases that a run enters, in their order. -/
def Phase.order : List Phase := PhaseEvent.order.map PhaseEvent.phase

theorem Phase.order_take_succ (p : Phase) {n : Nat} (h : p.rank = n + 1) :
    order.take (n + 1) = order.take n ++ [p] := by
  obtain rfl : n = p.rank - 1 := by omega
  cases p with
  | created => cases h
  | started | stopping | stopped | deinited => rfl

namespace Lifecycle

/-- Nothing but the event is told anew. -/
theorem announced_announce_subset (l : Lifecycle) (event : PhaseEvent) :
    (l.announce event).announced ⊆ l.announced ++ [event] := by
  rw [announce]
  split
  · exact List.Subset.refl _
  · exact List.subset_append_left _ _

theorem nodup_announce {l : Lifecycle} (h : l.announced.Nodup) {event : PhaseEvent}
    (hnew : event ∉ l.announced) : (l.announce event).announced.Nodup := by
  rw [announce]
  split
  · refine List.nodup_append.mpr ⟨h, List.nodup_singleton _, fun told htold last hlast => ?_⟩
    rw [List.mem_singleton.mp hlast]
    rintro rfl
    exact hnew htold
  · exact h

end Lifecycle

/-- The phase that a teardown saw at its beginning. -/
def TeardownEntry.begun? : TeardownEntry → Option Phase
  | .phase p => some p
  | .answer _ => none

/-- What an acknowledgement expects, what it announces, and its name in texts. -/
def PhaseAct.acknowledges? : PhaseAct → Option (Phase × PhaseEvent × String)
  | .startDone => some (.created, .started, "on_start_done")
  | .stopDone => some (.stopping, .stopped, "on_stop_done")
  | .deinitDone => some (.stopped, .deinited, "on_deinit_done")
  | .beginStop _ | .panic _ => none

/-- Whether an act asks for a stop. -/
def PhaseAct.isStop : PhaseAct → Bool
  | .beginStop _ => true
  | .startDone | .stopDone | .deinitDone | .panic _ => false

/-- A call on a lifecycle: what is called, and the scene that it finds. -/
structure PhaseCall where
  act : PhaseAct
  found : PhaseScene

namespace PhaseScene

/-- The phases that were entered until now. -/
def entered (s : PhaseScene) : List Phase := Phase.entries (s.moments.map (·.phase))

/-- What each teardown that has run saw at its beginning. -/
def teardowns (s : PhaseScene) : List Phase := s.records.filterMap TeardownEntry.begun?

end PhaseScene

namespace PhaseCall

/-- What is answered, unless a panic unwinds. -/
def answer (c : PhaseCall) : Except Panic PhaseAnswer := (c.act.perform.run c.found).1

/-- The scene that is left behind. -/
def left (c : PhaseCall) : PhaseScene := (c.act.perform.run c.found).2

/-- Whether the call is a stop that finds the run started. -/
def stopsRun (c : PhaseCall) : Bool := c.act.isStop && c.found.lifecycle.phase = .started

/-- A call that is answered as the phase demands. -/
structure Lawful (c : PhaseCall) : Prop where
  /-- an acknowledgement in the phase that it expects enters the next one and announces it -/
  accepted : ∀ source event name, c.act.acknowledges? = some (source, event, name) →
    c.found.lifecycle.phase = source → c.answer = .ok (.done (.ok ())) ∧
      c.left.lifecycle = { c.found.lifecycle with phase := event.phase }.announce event
  /-- an acknowledgement in any other phase tells both phases and changes nothing -/
  refused : ∀ source event name, c.act.acknowledges? = some (source, event, name) →
    c.found.lifecycle.phase ≠ source →
      c.answer = .ok (.done (.error (.invalidState (name ++ " called while " ++
        c.found.lifecycle.phase.text ++ "; expected " ++ source.text)))) ∧
      c.left.lifecycle = c.found.lifecycle
  /-- a stop is refused just before the start -/
  early : c.act.isStop = true → ((∃ e, c.answer = .ok (.stop (.error e))) ↔
    c.found.lifecycle.phase = .created)
  /-- a stop is too late just from the stopping phase on -/
  late : c.act.isStop = true → (c.answer = .ok (.stop (.ok false)) ↔
    Phase.stopping.rank ≤ c.found.lifecycle.phase.rank)
  /-- a stop of a run that is not started changes nothing -/
  idle : c.act.isStop = true → c.found.lifecycle.phase ≠ .started →
    c.left.lifecycle = c.found.lifecycle
  /-- a teardown runs just in a stop of a started run, and sees the stopping phase -/
  teardowns : c.left.teardowns = c.found.teardowns ++ if c.stopsRun then [.stopping] else []

end PhaseCall

mutual

/-- The calls that are made in an act, as they begin: its own, and those of its teardown if that
runs. -/
def PhaseAct.calls : PhaseAct → PhaseScene → List PhaseCall
  | .panic _, _ => []
  | .beginStop teardown, s =>
    ⟨.beginStop teardown, s⟩ ::
      if s.lifecycle.phase = .started then callsInside teardown (teardownScene s) else []
  | .startDone, s => [⟨.startDone, s⟩]
  | .stopDone, s => [⟨.stopDone, s⟩]
  | .deinitDone, s => [⟨.deinitDone, s⟩]

/-- The calls that are made in a teardown, up to the first panic. -/
def PhaseAct.callsInside : List PhaseAct → PhaseScene → List PhaseCall
  | [], _ => []
  | act :: acts, s =>
    act.calls s ++
      match act.perform.run s with
      | (.error _, _) => []
      | (.ok answer, s') => callsInside acts ((PhaseScene.note (.answer answer)).run s').2

end

namespace PhaseScene

open PhaseAct

/-- All calls of a run, also those from inside of teardowns. Panics of the acts are caught. -/
def calls (s : PhaseScene) : List PhaseAct → List PhaseCall
  | [] => []
  | act :: acts => act.calls s ++ calls (act.perform.run s).2 acts

section Steps

@[simp] theorem teardowns_moveTo (s : PhaseScene) (l : Lifecycle) :
    (s.moveTo l).teardowns = s.teardowns := rfl

@[simp] theorem teardowns_note_answer (s : PhaseScene) (answer : PhaseAnswer) :
    ((note (.answer answer)).run s).2.teardowns = s.teardowns := by
  change (s.records ++ [TeardownEntry.answer answer]).filterMap TeardownEntry.begun? = _
  simp [teardowns, TeardownEntry.begun?]

@[simp] theorem teardowns_teardownScene (s : PhaseScene) :
    (teardownScene s).teardowns = s.teardowns ++ [.stopping] := by
  change (s.records ++ [TeardownEntry.phase .stopping]).filterMap TeardownEntry.begun? = _
  simp [teardowns, TeardownEntry.begun?]

/-- The announcement after a teardown begins no other. -/
theorem teardowns_afterTeardown (r : Except Panic Unit × PhaseScene) :
    (afterTeardown r).teardowns = r.2.teardowns := by
  rcases r with ⟨_ | _, s⟩
  · rfl
  · rfl

theorem entered_moveTo (s : PhaseScene) (l : Lifecycle) :
    (s.moveTo l).entered = s.entered ++ if s.lifecycle.phase = l.phase then [] else [l.phase] := by
  rw [entered, moments_moveTo, entered, moments, List.map_append, List.map_append]
  exact Phase.entries_concat _ _ _

/-- An acknowledgement is one step. -/
theorem run_acknowledge {act : PhaseAct} {source : Phase} {event : PhaseEvent} {name : String}
    (h : act.acknowledges? = some (source, event, name)) (s : PhaseScene) :
    act.perform.run s = (.ok (.done (s.lifecycle.advance source event name).1),
      s.moveTo (s.lifecycle.advance source event name).2) := by
  cases act with
  | startDone | stopDone | deinitDone =>
    cases h
    rfl
  | beginStop teardown => cases h
  | panic p => cases h

/-- What an acknowledgement expects comes right before what it announces, and is no stop. -/
theorem rank_of_acknowledges {act : PhaseAct} {source : Phase} {event : PhaseEvent} {name : String}
    (h : act.acknowledges? = some (source, event, name)) :
    event.phase.rank = source.rank + 1 ∧ event ≠ .stopping := by
  cases act with
  | startDone | stopDone | deinitDone =>
    cases h
    exact ⟨rfl, by decide⟩
  | beginStop teardown => cases h
  | panic p => cases h

/-- A stop of a run that is not started is answered at once. -/
theorem run_beginStop_idle {s : PhaseScene} (h : s.lifecycle.phase ≠ .started)
    (teardown : List PhaseAct) :
    (beginStop teardown).perform.run s =
      (.ok (.stop s.lifecycle.enterStopping.1), s.moveTo s.lifecycle) := by
  cases hp : s.lifecycle.phase with
  | started => exact absurd hp h
  | created | stopping | stopped | deinited =>
    rw [perform, Lifecycle.beginStop, run_bind, run_bind, run_step, Lifecycle.enterStopping, hp]
    rfl

/-- A stop of a started run succeeds, unless a panic unwinds out of its teardown. -/
theorem fst_run_beginStop {s : PhaseScene} (h : s.lifecycle.phase = .started)
    (teardown : List PhaseAct) :
    ((beginStop teardown).perform.run s).1 =
      ((performAll teardown).run (teardownScene s)).1.map fun _ => .stop (.ok true) := by
  have henter : (lifecyclePlace.step Lifecycle.enterStopping).run s = (.ok true, entering s) := by
    rw [run_step, Lifecycle.enterStopping, h]
    rfl
  have hteardown : (do
      note (.phase (← get).lifecycle.phase)
      performAll teardown : StateM PhaseScene (Except Panic Unit)).run (entering s) =
        (performAll teardown).run (teardownScene s) := rfl
  rw [perform, run_bind, Lifecycle.beginStop, run_bind, henter]
  dsimp only
  rw [run_bind, hteardown]
  rcases (performAll teardown).run (teardownScene s) with ⟨_ | _, s'⟩
  · rfl
  · rfl

/-- If a stop gives an answer, the phase that it finds has decided which. -/
theorem eq_of_run_beginStop {teardown : List PhaseAct} {s : PhaseScene} {result : Except Fault Bool}
    (h : ((beginStop teardown).perform.run s).1 = .ok (.stop result)) :
    result = s.lifecycle.enterStopping.1 := by
  by_cases hp : s.lifecycle.phase = .started
  · rw [fst_run_beginStop hp] at h
    cases hended : ((performAll teardown).run (teardownScene s)).1 with
    | error p =>
      rw [hended] at h
      cases h
    | ok _ =>
      rw [hended] at h
      cases h
      rw [Lifecycle.enterStopping, hp]
  · rw [run_beginStop_idle hp] at h
    cases h
    rfl

theorem exists_of_isStop {act : PhaseAct} (h : act.isStop = true) :
    ∃ teardown, act = .beginStop teardown := by
  cases act with
  | startDone | stopDone | deinitDone | panic p => cases h
  | beginStop teardown => exact ⟨teardown, rfl⟩

end Steps

/-- The phases were entered in their order up to the present one, and those that were announced were
entered, none announced twice. One teardown has run if the run is past its start. -/
structure Forward (s : PhaseScene) : Prop where
  entered : s.entered = Phase.order.take s.lifecycle.phase.rank
  rising : (s.moments.map (·.phase.rank)).Pairwise (· ≤ ·)
  once : ∀ l ∈ s.moments, l.announced.Nodup
  reached : ∀ event ∈ s.lifecycle.announced, event.phase.rank ≤ s.lifecycle.phase.rank
  teardowns : s.teardowns =
    if Phase.stopping.rank ≤ s.lifecycle.phase.rank then [.stopping] else []

/-- What becomes of a scene if no teardown begins and no stop is announced. -/
structure Onward (s s' : PhaseScene) : Prop where
  forward : s.Forward → s'.Forward
  rank : s.lifecycle.phase.rank ≤ s'.lifecycle.phase.rank
  teardowns : s'.teardowns = s.teardowns
  stopping : .stopping ∈ s'.lifecycle.announced → .stopping ∈ s.lifecycle.announced

section Forward

variable {s s' s'' : PhaseScene}

theorem forward_new (listening : Bool) : ({ lifecycle := { listening } } : PhaseScene).Forward where
  entered := rfl
  rising := List.pairwise_singleton _ _
  once l hl := by
    rw [List.mem_singleton.mp hl]
    exact List.nodup_nil
  reached event hevent := absurd hevent List.not_mem_nil
  teardowns := rfl

theorem Onward.refl (s : PhaseScene) : Onward s s := ⟨id, Nat.le_refl _, rfl, id⟩

theorem Onward.trans (h : Onward s s') (h' : Onward s' s'') : Onward s s'' where
  forward hs := h'.forward (h.forward hs)
  rank := Nat.le_trans h.rank h'.rank
  teardowns := h'.teardowns.trans h.teardowns
  stopping hmem := h.stopping (h'.stopping hmem)

/-- A step to the same phase or a later one does not go back. -/
theorem Forward.rising_moveTo (h : s.Forward) {l : Lifecycle}
    (hle : s.lifecycle.phase.rank ≤ l.phase.rank) :
    ((s.moveTo l).moments.map (·.phase.rank)).Pairwise (· ≤ ·) := by
  have hlast : ∀ r ∈ s.moments.map (·.phase.rank), r ≤ s.lifecycle.phase.rank := by
    have hrising := h.rising
    rw [moments, List.map_append, List.pairwise_append] at hrising
    intro r hr
    rw [moments, List.map_append] at hr
    rcases List.mem_append.mp hr with hr | hr
    · exact hrising.2.2 r hr _ (List.mem_singleton_self _)
    · exact Nat.le_of_eq (List.mem_singleton.mp hr)
  rw [moments_moveTo, List.map_append, List.pairwise_append]
  refine ⟨h.rising, List.pairwise_singleton _ _, fun r hr r' hr' => ?_⟩
  rw [List.mem_singleton.mp hr']
  exact Nat.le_trans (hlast r hr) hle

/-- If nothing is told twice after a step either, it never was. -/
theorem Forward.once_moveTo (h : s.Forward) {l : Lifecycle} (honce : l.announced.Nodup) :
    ∀ l' ∈ (s.moveTo l).moments, l'.announced.Nodup := by
  intro l' hl'
  rw [moments_moveTo, List.mem_append, List.mem_singleton] at hl'
  rcases hl' with hold | rfl
  · exact h.once l' hold
  · exact honce

/-- A step on the way of a run that does not begin the stopping phase. -/
theorem Forward.moveTo (h : s.Forward) {l : Lifecycle}
    (hentered : (s.moveTo l).entered = Phase.order.take l.phase.rank)
    (hrank : s.lifecycle.phase.rank ≤ l.phase.rank) (honce : l.announced.Nodup)
    (hreached : ∀ event ∈ l.announced, event.phase.rank ≤ l.phase.rank)
    (hside : Phase.stopping.rank ≤ l.phase.rank ↔
      Phase.stopping.rank ≤ s.lifecycle.phase.rank) : (s.moveTo l).Forward where
  entered := hentered
  rising := h.rising_moveTo hrank
  once := h.once_moveTo honce
  reached := hreached
  teardowns := by
    change s.teardowns = if Phase.stopping.rank ≤ l.phase.rank then _ else _
    rw [h.teardowns]
    simp only [hside]

/-- A step that stays in its phase and tells at most what is new and was entered. -/
theorem Forward.stay (h : s.Forward) {l : Lifecycle} (hphase : l.phase = s.lifecycle.phase)
    (honce : l.announced.Nodup)
    (hreached : ∀ event ∈ l.announced, event.phase.rank ≤ s.lifecycle.phase.rank) :
    (s.moveTo l).Forward := by
  rw [← hphase] at hreached
  refine h.moveTo ?_ (Nat.le_of_eq (congrArg Phase.rank hphase.symm)) honce hreached ?_
  · rw [entered_moveTo, if_pos hphase.symm, List.append_nil, h.entered, hphase]
  · rw [hphase]

/-- The phases entered before the next one, and it. -/
theorem Forward.entered_next (h : s.Forward) {l : Lifecycle}
    (hnext : l.phase.rank = s.lifecycle.phase.rank + 1) :
    (s.moveTo l).entered = Phase.order.take l.phase.rank := by
  have hne : s.lifecycle.phase ≠ l.phase := by
    intro heq
    rw [heq] at hnext
    omega
  rw [entered_moveTo, if_neg hne, h.entered, hnext, Phase.order_take_succ _ hnext]

/-- An acknowledged phase is entered and told. -/
theorem Forward.acknowledge (h : s.Forward) {event : PhaseEvent}
    (hnext : event.phase.rank = s.lifecycle.phase.rank + 1) (hstop : event ≠ .stopping) :
    (s.moveTo ({ s.lifecycle with phase := event.phase }.announce event)).Forward := by
  have hphase : ({ s.lifecycle with phase := event.phase }.announce event).phase = event.phase :=
    Lifecycle.phase_announce _ event
  have hsubset : ({ s.lifecycle with phase := event.phase }.announce event).announced ⊆
      s.lifecycle.announced ++ [event] := Lifecycle.announced_announce_subset _ event
  have hnew : event ∉ s.lifecycle.announced := by
    intro hmem
    have := h.reached event hmem
    omega
  have honce : ({ s.lifecycle with phase := event.phase }.announce event).announced.Nodup :=
    Lifecycle.nodup_announce (l := { s.lifecycle with phase := event.phase })
      (h.once s.lifecycle s.lifecycle_mem_moments) hnew
  generalize { s.lifecycle with phase := event.phase }.announce event = l at *
  rw [← hphase] at hnext
  refine h.moveTo (h.entered_next hnext) (by omega) honce (fun told htold => ?_) ?_
  · rcases List.mem_append.mp (hsubset htold) with hold | hlast
    · have := h.reached told hold
      omega
    · exact Nat.le_of_eq (by rw [List.mem_singleton.mp hlast, hphase])
  · -- no acknowledgement enters the stopping phase, so it lies behind for both or for neither
    have hother : l.phase.rank ≠ Phase.stopping.rank := by
      rw [hphase]
      cases event with
      | stopping => exact absurd rfl hstop
      | started | stopped | deinited => decide
    omega

/-- Where a teardown begins, the stopping phase was entered and nothing was told of it. -/
theorem Forward.teardownScene (h : s.Forward) (hp : s.lifecycle.phase = .started) :
    (teardownScene s).Forward where
  entered := by
    change (entering s).entered = _
    rw [entering, h.entered_next (by rw [hp]; rfl)]
    rfl
  rising := h.rising_moveTo (l := { s.lifecycle with phase := .stopping })
    (by rw [hp]; exact Nat.le_succ _)
  once := h.once_moveTo (l := { s.lifecycle with phase := .stopping })
    (h.once s.lifecycle s.lifecycle_mem_moments)
  reached event hevent := by
    have hbefore := h.reached event hevent
    rw [hp] at hbefore
    exact Nat.le_trans hbefore (Nat.le_succ _)
  teardowns := by
    rw [teardowns_teardownScene, h.teardowns, hp]
    rfl

/-- No act but a stop of a started run begins a teardown or announces the stop. -/
theorem onward_perform {act : PhaseAct}
    (h : act.isStop = true → s.lifecycle.phase ≠ .started) : Onward s (act.perform.run s).2 := by
  have hstay : Onward s (s.moveTo s.lifecycle) :=
    ⟨fun hs => hs.stay rfl (hs.once _ s.lifecycle_mem_moments) hs.reached, Nat.le_refl _, rfl, id⟩
  cases hack : act.acknowledges? with
  | some expected =>
    obtain ⟨source, event, name⟩ := expected
    obtain ⟨hnext, hstop⟩ := rank_of_acknowledges hack
    rw [run_acknowledge hack, Lifecycle.advance]
    by_cases hp : s.lifecycle.phase = source
    · rw [if_pos hp]
      rw [← hp] at hnext
      have hphase := Lifecycle.phase_announce { s.lifecycle with phase := event.phase } event
      refine ⟨fun hs => hs.acknowledge hnext hstop, ?_, rfl, fun hmem => ?_⟩
      · change _ ≤ ({ s.lifecycle with phase := event.phase }.announce event).phase.rank
        rw [hphase]
        exact Nat.le_of_lt (by rw [hnext]; exact Nat.lt_succ_self _)
      · rcases List.mem_append.mp (Lifecycle.announced_announce_subset _ _ hmem) with hold | hlast
        · exact hold
        · exact absurd (List.mem_singleton.mp hlast).symm hstop
    · rw [if_neg hp]
      exact hstay
  | none =>
    cases act with
    | startDone | stopDone | deinitDone => cases hack
    | beginStop teardown =>
      rw [run_beginStop_idle (h rfl)]
      exact hstay
    | panic p => exact Onward.refl s

theorem onward_note (s : PhaseScene) (answer : PhaseAnswer) :
    Onward s ((note (.answer answer)).run s).2 where
  forward hs :=
    have hteardowns := (teardowns_note_answer s answer).trans hs.teardowns
    ⟨hs.entered, hs.rising, hs.once, hs.reached, hteardowns⟩
  rank := Nat.le_refl _
  teardowns := teardowns_note_answer s answer
  stopping := id

/-- A run that is stopping, or past that, is not started. -/
theorem ne_started_of_stopping (h : Phase.stopping.rank ≤ s.lifecycle.phase.rank) :
    s.lifecycle.phase ≠ .started := by
  intro hp
  rw [hp] at h
  exact absurd h (by decide)

/-- No teardown begins inside of a teardown. -/
theorem onward_performAll (acts : List PhaseAct)
    (h : Phase.stopping.rank ≤ s.lifecycle.phase.rank) :
    Onward s ((performAll acts).run s).2 := by
  induction acts generalizing s with
  | nil => exact Onward.refl s
  | cons act acts ih =>
    have hfirst : Onward s (act.perform.run s).2 :=
      onward_perform fun _ => ne_started_of_stopping h
    rw [run_performAll_cons]
    split
    · next p s' hrun => rwa [hrun] at hfirst
    · next answer s' hrun =>
      rw [hrun] at hfirst
      have hnoted := hfirst.trans (onward_note s' answer)
      exact hnoted.trans (ih (Nat.le_trans h hnoted.rank))

/-- Every act keeps a run on its way. -/
theorem Forward.perform (h : s.Forward) (act : PhaseAct) : (act.perform.run s).2.Forward := by
  by_cases hstop : act.isStop = true ∧ s.lifecycle.phase = .started
  · obtain ⟨hstop, hp⟩ := hstop
    obtain ⟨teardown, rfl⟩ := exists_of_isStop hstop
    have hinside := onward_performAll teardown (s := PhaseAct.teardownScene s) (Nat.le_refl _)
    have hended := hinside.forward (h.teardownScene hp)
    have hunsaid : PhaseEvent.stopping ∉ s.lifecycle.announced := by
      intro hmem
      have := h.reached _ hmem
      rw [hp] at this
      exact absurd this (by decide)
    rw [run_beginStop hp]
    generalize (performAll teardown).run (PhaseAct.teardownScene s) = ended at hinside hended ⊢
    obtain ⟨_ | _, s'⟩ := ended
    · exact hended
    -- the stop is announced at last, in whatever phase the teardown has left behind
    · refine hended.stay (Lifecycle.phase_announce _ _) ?_ ?_
      · apply Lifecycle.nodup_announce (hended.once _ s'.lifecycle_mem_moments)
        exact fun hmem => hunsaid (hinside.stopping hmem)
      · intro event hevent
        rcases List.mem_append.mp (Lifecycle.announced_announce_subset _ _ hevent) with hold | hlast
        · exact hended.reached event hold
        · rw [List.mem_singleton.mp hlast]
          exact hinside.rank
  · exact (onward_perform fun hs hp => hstop ⟨hs, hp⟩).forward h

theorem Forward.afterAll (h : s.Forward) (acts : List PhaseAct) : (s.afterAll acts).Forward := by
  induction acts generalizing s with
  | nil => exact h
  | cons act acts ih => exact ih (h.perform act)

end Forward

end PhaseScene

namespace PhaseCall

open PhaseAct PhaseScene

/-- Teardowns run in those calls only that stop a started run. -/
theorem teardowns_left (c : PhaseCall) :
    c.left.teardowns = c.found.teardowns ++ if c.stopsRun then [.stopping] else [] := by
  obtain ⟨act, s⟩ := c
  by_cases hstop : act.isStop = true ∧ s.lifecycle.phase = .started
  · have hruns : (PhaseCall.mk act s).stopsRun = true := by simpa [stopsRun] using hstop
    obtain ⟨hstop, hp⟩ := hstop
    obtain ⟨teardown, rfl⟩ := exists_of_isStop hstop
    have hinside := onward_performAll teardown (s := teardownScene s) (Nat.le_refl _)
    rw [if_pos hruns, left, run_beginStop hp, teardowns_afterTeardown, hinside.teardowns,
      teardowns_teardownScene]
  · have hruns : (PhaseCall.mk act s).stopsRun ≠ true := by simpa [stopsRun] using hstop
    rw [if_neg hruns, List.append_nil]
    exact (onward_perform fun hs hp => hstop ⟨hs, hp⟩).teardowns

/-- Every call is answered as the phase demands that it finds. -/
theorem lawful (c : PhaseCall) : c.Lawful := by
  obtain ⟨act, s⟩ := c
  constructor
  case accepted =>
    intro source event name hack hp
    rw [answer, left, run_acknowledge hack, Lifecycle.advance, if_pos hp]
    exact ⟨rfl, rfl⟩
  case refused =>
    intro source event name hack hp
    rw [answer, left, run_acknowledge hack, Lifecycle.advance, if_neg hp]
    exact ⟨rfl, rfl⟩
  case early =>
    intro hstop
    obtain ⟨teardown, rfl⟩ := exists_of_isStop hstop
    constructor
    · rintro ⟨e, he⟩
      have hanswer := eq_of_run_beginStop he
      rw [Lifecycle.enterStopping] at hanswer
      cases hp : s.lifecycle.phase with
      | created => rfl
      | started | stopping | stopped | deinited =>
        rw [hp] at hanswer
        cases hanswer
    · intro hp
      change s.lifecycle.phase = .created at hp
      refine ⟨.invalidState "stop_test called before the test started", ?_⟩
      rw [answer, run_beginStop_idle (by rw [hp]; decide), Lifecycle.enterStopping, hp]
  case late =>
    intro hstop
    obtain ⟨teardown, rfl⟩ := exists_of_isStop hstop
    constructor
    · intro hlate
      have hanswer := eq_of_run_beginStop hlate
      rw [Lifecycle.enterStopping] at hanswer
      change _ ≤ s.lifecycle.phase.rank
      cases hp : s.lifecycle.phase with
      | stopping | stopped | deinited => decide
      | created | started =>
        rw [hp] at hanswer
        cases hanswer
    · intro hrank
      change _ ≤ s.lifecycle.phase.rank at hrank
      rw [answer, run_beginStop_idle (ne_started_of_stopping hrank), Lifecycle.enterStopping]
      cases hp : s.lifecycle.phase with
      | stopping | stopped | deinited => rfl
      | created | started =>
        rw [hp] at hrank
        exact absurd hrank (by decide)
  case idle =>
    intro hstop hp
    obtain ⟨teardown, rfl⟩ := exists_of_isStop hstop
    rw [left, run_beginStop_idle hp]
    rfl
  case teardowns => exact teardowns_left ⟨act, s⟩

end PhaseCall

namespace PhaseAct

open PhaseScene

/-- Once a run is stopping, none of the calls inside of an act stops it. -/
theorem countP_calls_of_stopping (act : PhaseAct) {s : PhaseScene}
    (h : Phase.stopping.rank ≤ s.lifecycle.phase.rank) :
    (act.calls s).countP PhaseCall.stopsRun = 0 := by
  have hne := ne_started_of_stopping h
  cases act with
  | startDone | stopDone | deinitDone | panic p => rfl
  | beginStop teardown => simp [calls, hne, PhaseCall.stopsRun]

theorem countP_callsInside_of_stopping (acts : List PhaseAct) {s : PhaseScene}
    (h : Phase.stopping.rank ≤ s.lifecycle.phase.rank) :
    (callsInside acts s).countP PhaseCall.stopsRun = 0 := by
  induction acts generalizing s with
  | nil => rfl
  | cons act acts ih =>
    have hfirst : Onward s (act.perform.run s).2 :=
      onward_perform fun _ => ne_started_of_stopping h
    rw [callsInside, List.countP_append, countP_calls_of_stopping act h, Nat.zero_add]
    split
    · rfl
    · next answer s' hrun =>
      rw [hrun] at hfirst
      exact ih (Nat.le_trans h (hfirst.trans (onward_note s' answer)).rank)

/-- A teardown runs for each call inside of an act that stops a started run. -/
theorem length_teardowns_perform (act : PhaseAct) (s : PhaseScene) :
    (act.perform.run s).2.teardowns.length =
      s.teardowns.length + (act.calls s).countP PhaseCall.stopsRun := by
  have hleft : (act.perform.run s).2.teardowns = _ := PhaseCall.teardowns_left ⟨act, s⟩
  rw [hleft, List.length_append]
  congr 1
  cases act with
  | startDone | stopDone | deinitDone | panic p => rfl
  | beginStop teardown =>
    by_cases hp : s.lifecycle.phase = .started
    · have hinside := countP_callsInside_of_stopping teardown (s := teardownScene s)
        (Nat.le_refl _)
      simp [calls, hp, PhaseCall.stopsRun, isStop, hinside]
    · simp [calls, hp, PhaseCall.stopsRun]

end PhaseAct

namespace PhaseScene

theorem length_teardowns_afterAll (s : PhaseScene) (acts : List PhaseAct) :
    (s.afterAll acts).teardowns.length =
      s.teardowns.length + (s.calls acts).countP PhaseCall.stopsRun := by
  induction acts generalizing s with
  | nil => rfl
  | cons act acts ih =>
    change ((act.perform.run s).2.afterAll acts).teardowns.length = _
    rw [ih, PhaseAct.length_teardowns_perform, calls, List.countP_append, Nat.add_assoc]

/-- Whatever is done to a new run, with or without a listener, in whatever teardowns and with
whatever panics: the phase never goes back, phases are entered one after the other, each from the
one before and so at most once, and nothing is announced twice. Every call, also from inside of a
teardown, is answered as the phase demands that it finds. A teardown has run for each call that has
stopped a started run; there is at most one, and it saw the run stopping. -/
theorem moves_forward_once (listening : Bool) (acts : List PhaseAct) :
    let new : PhaseScene := { lifecycle := { listening } }
    let s := new.afterAll acts
    (s.moments.map (·.phase.rank)).Pairwise (· ≤ ·) ∧
      s.entered = [.started, .stopping, .stopped, .deinited].take s.lifecycle.phase.rank ∧
      (∀ l ∈ s.moments, l.announced.Nodup) ∧
      (∀ call ∈ new.calls acts, call.Lawful) ∧
      s.teardowns.length = (new.calls acts).countP PhaseCall.stopsRun ∧
      s.teardowns.length ≤ 1 ∧ ∀ p ∈ s.teardowns, p = .stopping := by
  intro new s
  have hforward : s.Forward := (forward_new listening).afterAll acts
  have hteardowns := hforward.teardowns
  refine ⟨hforward.rising, hforward.entered, hforward.once, fun call _ => call.lawful, ?_, ?_, ?_⟩
  · rw [length_teardowns_afterAll]
    exact Nat.zero_add _
  · rw [hteardowns]
    split
    · exact Nat.le_refl _
    · exact Nat.zero_le _
  · intro p hp
    rw [hteardowns] at hp
    split at hp
    · exact List.mem_singleton.mp hp
    · cases hp

/-- A teardown that acknowledges the stop, asks for another one and then panics. -/
example : (({} : PhaseScene).afterAll
    [.startDone, .beginStop [.stopDone, .beginStop [], .panic ⟨"too late"⟩], .deinitDone]).entered =
      [.started, .stopping, .stopped, .deinited] := rfl

end PhaseScene

end Switchboard
