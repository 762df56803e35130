import Switchboard.Proofs.Run.Books
/-!
# The line in front of the tester

What the tester has been called for and what is queued for it stand in one line: its phases in the
order in which the runner has queued them, and nothing but phases behind the stop. When the stop
comes to the head of the line all commands of the tester are ended, and their handlers were called
with the endings.
-/
namespace Switchboard.App

/-- The phase that an occasion belongs to. -/
def Occasion.phase? : Occasion → Option PhaseCallback
  | phase callback => some callback
  | traffic => none

/-- The occasion that is logged. -/
def Entry.occasion? : Entry → Option Occasion
  | sent _ => none
  | handler .. | message _ => some .traffic
  | phase callback => some (.phase callback)

/-- The callback that answers an announcement. -/
def callbackFor : PhaseEvent → Option PhaseCallback
  | .stopping => some .stop
  | .stopped => some .deinit
  | .started | .deinited => none

namespace Runner

/-- How many announcements a runner has received. -/
def heard : Runner → Nat
  | idle | installed | starting => 0
  | listening seen => seen
  | finished | draining .. | aborted | shutting _ | returned => 4

/-- The callbacks that a runner has queued. -/
def scheduled : Runner → List PhaseCallback
  | idle | installed => []
  | runner => .start :: (PhaseEvent.order.take runner.heard).filterMap callbackFor

/-- Whether there is a tester that is run. -/
def hasTester : Runner → Bool
  | idle | returned => false
  | _ => true

/-- Whether the tester's worker was shut down. -/
def closing : Runner → Bool
  | shutting _ | returned => true
  | _ => false

/-- Whether the tester's worker has run all its tasks after that. -/
def closed : Runner → Bool
  | shutting .engine | returned => true
  | _ => false

/-- Two runners of whom the same is expected. -/
structure Alike (r r' : Runner) : Prop where
  heard : r'.heard = r.heard
  scheduled : r'.scheduled = r.scheduled
  hasTester : r'.hasTester = r.hasTester
  closing : r'.closing = r.closing
  closed : r'.closed = r.closed

theorem Alike.refl (r : Runner) : Alike r r := ⟨rfl, rfl, rfl, rfl, rfl⟩

theorem alike_countDown (r : Runner) (side : Side) : Alike r (r.countDown side) := by
  rcases r.countDown_cases side with hsame | ⟨left, rfl, hless⟩
  · rw [hsame]
    exact .refl r
  · rw [hless]
    exact ⟨rfl, rfl, rfl, rfl, rfl⟩

theorem closing_of_closed {r : Runner} (h : r.closed = true) : r.closing = true := by
  cases r with
  | shutting side => rfl
  | returned => rfl
  | idle | installed | starting | finished | aborted => cases h
  | listening seen => cases h
  | draining side left => cases h

/-- The stop is queued only when it was announced. -/
theorem two_le_heard {r : Runner} (h : .stop ∈ r.scheduled) : 2 ≤ r.heard := by
  have htake {n : Nat} (hn : .stop ∈ PhaseCallback.start ::
      (PhaseEvent.order.take n).filterMap callbackFor) : 2 ≤ n := by
    rcases n with _ | _ | n
    · simp at hn
    · simp [PhaseEvent.order, callbackFor] at hn
    · omega
  cases r with
  | idle | installed => cases h
  | starting => exact htake h
  | listening seen => exact htake h
  | finished | aborted | returned => decide
  | draining side left => exact htake h
  | shutting side => exact htake h

/-- An announcement is answered by the callback that belongs to it. -/
theorem scheduled_listening_succ {seen : Nat} {event : PhaseEvent}
    (h : PhaseEvent.order[seen]? = some event) :
    (listening (seen + 1)).scheduled =
      (listening seen).scheduled ++ (callbackFor event).toList := by
  change _ :: (PhaseEvent.order.take (seen + 1)).filterMap callbackFor =
    _ :: (PhaseEvent.order.take seen).filterMap callbackFor ++ _
  rw [List.take_add_one, h, List.filterMap_append]
  cases hcallback : callbackFor event with
  | none => simp [hcallback]
  | some callback => simp [hcallback]

/-- Whoever has queued a phase has installed a tester, and has it until the end. -/
theorem hasTester_of_mem {r : Runner} {callback : PhaseCallback} (h : callback ∈ r.scheduled)
    (hclosed : r.closed = false) : r.hasTester = true := by
  cases r with
  | idle | installed => cases h
  | returned => cases hclosed
  | starting | finished | aborted => rfl
  | listening seen => rfl
  | draining side left => rfl
  | shutting side => rfl

end Runner

namespace Scene

/-- All occasions on which the tester was called or is going to be called, oldest first. -/
def timeline (s : Scene) : List Occasion :=
  s.log.filterMap Entry.occasion? ++ (s.app.worker .tester).queue.filterMap occasionOf

/-- The runner and the application have come equally far. -/
structure InPhase (s : Scene) : Prop where
  paced : s.app.Paced
  heard : s.runner.heard ≤ s.app.rank
  tester : s.runner.hasTester = true → s.app.tester.isSome
  accepting : (s.app.worker .tester).accepting = !s.runner.closing
  emptied : s.runner.closed = true → (s.app.worker .tester).queue = []

/-- The tester is called for its phases in the order in which they were queued, and for nothing else
behind the stop. -/
structure InLine (s : Scene) : Prop where
  phases : s.timeline.filterMap Occasion.phase? = s.runner.scheduled
  silent : s.timeline.Pairwise fun earlier later => earlier = .phase .stop → later ≠ .traffic
  engine : ∀ callback, .job (.phase callback) ∉ (s.app.worker .engine).queue

/-- Whenever the tester was called to stop, the handlers of all its commands had been called with
outcomes that end them. -/
def Settled (s : Scene) : Prop :=
  ∀ n, s.log[n]? = some (.phase .stop) → ∀ i, .sent i ∈ s.log →
    ∃ outcome, outcome.isTerminal = true ∧ .handler i outcome ∈ s.log.take n

/-- The invariant of scenes. -/
structure Ordered (owners : List Side) (s : Scene) : Prop where
  accounted : s.Accounted owners
  inPhase : s.InPhase
  inLine : s.InLine
  settled : s.Settled

section Changes

variable {s s' : Scene}

/-- The lifecycle and the router are as they were. -/
theorem InPhase.of_lifecycle (h : s.InPhase) (hlifecycle : s'.app.lifecycle = s.app.lifecycle)
    (hrouter : s'.app.router = s.app.router) (hheard : s'.runner.heard ≤ s.app.rank)
    (htester : s'.runner.hasTester = true → s'.app.tester.isSome)
    (haccepting : (s'.app.worker .tester).accepting = !s'.runner.closing)
    (hemptied : s'.runner.closed = true → (s'.app.worker .tester).queue = []) : s'.InPhase where
  paced := h.paced.of_lifecycle hlifecycle fun hhushed => hhushed.of_router hrouter
  heard := by
    rw [rank, hlifecycle]
    exact hheard
  tester := htester
  accepting := haccepting
  emptied := hemptied

/-- More occasions are in the line, and no traffic when there is a stop. -/
theorem InLine.append (h : s.InLine) {later : List Occasion}
    (htimeline : s'.timeline = s.timeline ++ later)
    (hscheduled : s'.runner.scheduled = s.runner.scheduled ++ later.filterMap Occasion.phase?)
    (hquiet : .phase .stop ∈ s.timeline ++ later → .traffic ∉ later)
    (hengine : ∀ callback, .job (.phase callback) ∉ (s'.app.worker .engine).queue) :
    s'.InLine where
  phases := by rw [htimeline, List.filterMap_append, h.phases, hscheduled]
  silent := by
    have hbehind {earlier occasion : Occasion} (hearlier : earlier ∈ s.timeline ++ later)
        (hlater : occasion ∈ later) (hstop : earlier = .phase .stop) : occasion ≠ .traffic := by
      rintro rfl
      exact hquiet (hstop ▸ hearlier) hlater
    rw [htimeline, List.pairwise_append]
    refine ⟨h.silent, ?_, fun earlier hearlier occasion hlater => ?_⟩
    · apply List.pairwise_of_forall_mem_list
      exact fun earlier hearlier occasion hlater =>
        hbehind (List.mem_append_right _ hearlier) hlater
    · exact hbehind (List.mem_append_left _ hearlier) hlater
  engine := hengine

/-- Occasions other than phases are gone from the line, or nothing is. -/
theorem InLine.sublist (h : s.InLine) (hsublist : s'.timeline.Sublist s.timeline)
    (hphases : s'.timeline.filterMap Occasion.phase? = s.timeline.filterMap Occasion.phase?)
    (hscheduled : s'.runner.scheduled = s.runner.scheduled)
    (hengine : (s'.app.worker .engine).queue ⊆ (s.app.worker .engine).queue) : s'.InLine where
  phases := by rw [hphases, h.phases, hscheduled]
  silent := h.silent.sublist hsublist
  engine callback hmem := h.engine callback (hengine hmem)

/-- Entries are logged, no command behind a stop, and a stop only when all handlers of commands have
been called with outcomes that end them. -/
theorem Settled.append (h : s.Settled) {entries : List Entry} (hlog : s'.log = s.log ++ entries)
    (hsent : .phase .stop ∈ s.log → ∀ i, .sent i ∉ entries)
    (hstop : .phase .stop ∈ entries → ∀ i, .sent i ∈ s'.log →
      ∃ outcome, outcome.isTerminal = true ∧ .handler i outcome ∈ s.log) : s'.Settled := by
  intro n hn i hi
  rw [hlog] at hn
  rcases Nat.lt_or_ge n s.log.length with hlt | hge
  · rw [List.getElem?_append_left hlt] at hn
    have hold : .sent i ∈ s.log := by
      rw [hlog] at hi
      exact (List.mem_append.mp hi).resolve_right (hsent (List.mem_of_getElem? hn) i)
    rw [hlog, List.take_append_of_le_length (Nat.le_of_lt hlt)]
    exact h n hn i hold
  · rw [List.getElem?_append_right hge] at hn
    obtain ⟨outcome, hterminal, hheard⟩ := hstop (List.mem_of_getElem? hn) i hi
    refine ⟨outcome, hterminal, ?_⟩
    rw [hlog, List.take_append, List.take_of_length_le hge]
    exact List.mem_append_left _ hheard

end Changes

section Tasks

/-- Only what workers are busy with and what happens at continuations has changed. -/
structure Unshaken (a a' : App) : Prop where
  name : a'.name = a.name
  extension : a'.extension = a.extension
  lifecycle : a'.lifecycle = a.lifecycle
  router : a'.router = a.router
  tester : a'.tester = a.tester
  counters : a'.counters = a.counters
  dropped : a'.dropped = a.dropped
  queue : ∀ side, (a'.worker side).queue = (a.worker side).queue
  accepting : ∀ side, (a'.worker side).accepting = (a.worker side).accepting

/-- Only the job that calls for a phase is that occasion. -/
theorem eq_of_occasionOf {task : Task Job} {callback : PhaseCallback}
    (h : occasionOf task = some (.phase callback)) : task = .job (.phase callback) := by
  cases task with
  | mark => cases h
  | job job =>
    cases job with
    | phase callback =>
      cases h
      rfl
    | resume i outcome terminal => cases h
    | arrival msg => cases h
    | initExtension properties => cases h
    | startExtension => cases h
    | completion completion => cases h

theorem Unshaken.refl (a : App) : Unshaken a a :=
  ⟨rfl, rfl, rfl, rfl, rfl, rfl, rfl, fun _ => rfl, fun _ => rfl⟩

theorem unshaken_setCell (a : App) (i : Nat) (c : Continuation Handler) :
    Unshaken a (a.setCell i c) :=
  ⟨rfl, rfl, rfl, rfl, rfl, rfl, rfl, fun _ => rfl, fun _ => rfl⟩

theorem unshaken_counted (a : App) (side : Side) (ended : Except Panic Unit) :
    Unshaken a (a.counted side ended) where
  name := name_setWorker a side _
  extension := extension_setWorker a side _
  lifecycle := lifecycle_setWorker a side _
  router := router_setWorker a side _
  tester := tester_setWorker a side _
  counters := counters_setWorker a side _
  dropped := dropped_setWorker a side _
  queue other := by
    rw [counted, worker_setWorker]
    split
    · next heq => rw [Worker.queue_count, heq]
    · rfl
  accepting other := by
    rw [counted, worker_setWorker]
    split
    · next heq => rw [Worker.accepting_count, heq]
    · rfl

theorem unshaken_ending (a : App) (business : Business) : Unshaken a (a.ending business) := by
  cases business with
  | call i handler terminal => exact unshaken_setCell a i _
  | other => exact .refl a

theorem Unshaken.trans {a b c : App} (h : Unshaken a b) (h' : Unshaken b c) : Unshaken a c where
  name := h'.name.trans h.name
  extension := h'.extension.trans h.extension
  lifecycle := h'.lifecycle.trans h.lifecycle
  router := h'.router.trans h.router
  tester := h'.tester.trans h.tester
  counters := h'.counters.trans h.counters
  dropped := h'.dropped.trans h.dropped
  queue side := (h'.queue side).trans (h.queue side)
  accepting side := (h'.accepting side).trans (h.accepting side)

theorem unshaken_ended (a : App) (business : Business) (side : Side) (ended : Except Panic Unit) :
    Unshaken a ((a.ending business).counted side ended) :=
  (unshaken_ending a business).trans (unshaken_counted _ side ended)

/-- A worker that ends its job moves neither the runner nor what is queued. -/
theorem unshaken_finish {s s' : Scene} {side : Side} {ended : Except Panic Unit}
    (h : s.finish side ended = some s') : Unshaken s.app s'.app ∧ s'.runner = s.runner := by
  obtain ⟨business, -, rfl⟩ := Option.map_eq_some_iff.mp h
  exact ⟨unshaken_ended s.app business side ended, rfl⟩

theorem unshaken_start (s : Scene) (side : Side) (task : Task Job) :
    Unshaken s.app (s.start side task).app ∧ (s.start side task).runner = s.runner := by
  cases task with
  | mark => exact ⟨unshaken_counted s.app side (.ok ()), rfl⟩
  | job job =>
    cases job with
    | resume i outcome terminal =>
      have hset := unshaken_setCell s.app i
        ((s.app.cells.getD i { slot := .released }).takeOut outcome terminal).2
      change Unshaken s.app (s.resume side i outcome terminal).app ∧
        (s.resume side i outcome terminal).runner = s.runner
      rw [resume]
      split
      · exact ⟨hset, rfl⟩
      · exact ⟨hset, rfl⟩
    | arrival msg => exact ⟨.refl s.app, rfl⟩
    | phase callback => exact ⟨.refl s.app, rfl⟩
    | initExtension properties => exact ⟨.refl s.app, rfl⟩
    | startExtension => exact ⟨.refl s.app, rfl⟩
    | completion completion => exact ⟨.refl s.app, rfl⟩

/-- A worker that takes a task takes it out of its queue and moves the runner that waits for it. -/
theorem unshaken_take {s s' : Scene} {side : Side} (h : s.take side = some s') :
    Unshaken (s.app.popped side) s'.app ∧ s'.runner = s.runner.countDown side := by
  obtain ⟨-, task, tasks, -, rfl⟩ := take_eq_some h
  exact unshaken_start { s with app := s.app.popped side, runner := s.runner.countDown side } side
    task

/-- What is logged when a worker begins with a task: nothing, or the occasion that the task is. -/
theorem log_start (s : Scene) (side : Side) (task : Task Job) :
    ∃ entries, (s.start side task).log = s.log ++ entries ∧
      (entries = [] ∨ ∃ entry occasion, entries = [entry] ∧ entry.occasion? = some occasion ∧
        occasionOf task = some occasion) := by
  have hif (condition : Prop) [Decidable condition] {entry : Entry} {occasion : Occasion}
      (hentry : entry.occasion? = some occasion) (htask : occasionOf task = some occasion) :
      (if condition then [entry] else []) = [] ∨ ∃ logged occasion,
        (if condition then [entry] else []) = [logged] ∧ logged.occasion? = some occasion ∧
          occasionOf task = some occasion := by
    split
    · exact Or.inr ⟨entry, occasion, rfl, hentry, htask⟩
    · exact Or.inl rfl
  cases task with
  | mark => exact ⟨[], (List.append_nil _).symm, Or.inl rfl⟩
  | job job =>
    cases job with
    | resume i outcome terminal =>
      change ∃ entries, (s.resume side i outcome terminal).log = s.log ++ entries ∧ _
      rw [resume]
      split
      · exact ⟨[], rfl, Or.inl rfl⟩
      · exact ⟨_, rfl, hif _ rfl rfl⟩
    | arrival msg => exact ⟨_, rfl, hif _ rfl rfl⟩
    | phase callback => exact ⟨_, rfl, hif _ rfl rfl⟩
    | initExtension properties => exact ⟨[], rfl, Or.inl rfl⟩
    | startExtension => exact ⟨[], rfl, Or.inl rfl⟩
    | completion completion => exact ⟨[], rfl, Or.inl rfl⟩

end Tasks

section Stop

variable {owners : List Side} {s : Scene}

/-- When the stop is in the line, nothing waits and nothing can be sent. -/
theorem Ordered.hushed (h : s.Ordered owners) (hstop : .phase .stop ∈ s.timeline) :
    s.app.Hushed := by
  have hscheduled : .stop ∈ s.runner.scheduled := by
    rw [← h.inLine.phases]
    exact List.mem_filterMap.mpr ⟨_, hstop, rfl⟩
  have hheard := h.inPhase.heard
  exact h.inPhase.paced.hushed (Nat.le_trans (Runner.two_le_heard hscheduled) hheard)

theorem Ordered.hushed_of_log (h : s.Ordered owners) (hstop : .phase .stop ∈ s.log) :
    s.app.Hushed := by
  apply h.hushed
  apply List.mem_append_left
  exact List.mem_filterMap.mpr ⟨_, hstop, rfl⟩

/-- A queue without deliveries to a continuation has no endings for it. -/
theorem queuedIn_eq_zero {queue : List (Task Job)} {i : Nat}
    (h : ∀ outcome terminal, .job (.resume i outcome terminal) ∉ queue) : queuedIn queue i = 0 := by
  induction queue with
  | nil => rfl
  | cons task tasks ih =>
    have hrest := ih fun outcome terminal hmem =>
      h outcome terminal (List.mem_cons_of_mem task hmem)
    rw [queuedIn_cons, hrest, Nat.add_zero]
    cases task with
    | mark => rfl
    | job job =>
      cases job with
      | resume k outcome terminal =>
        have hne : k ≠ i := by
          rintro rfl
          exact h outcome terminal List.mem_cons_self
        exact if_neg fun hboth => hne hboth.2
      | arrival msg => rfl
      | initExtension properties => rfl
      | startExtension => rfl
      | phase callback => rfl
      | completion completion => rfl

/-- When the tester's worker is about to call the tester to stop, every command of the tester was
ended, and its handler was called with the ending. -/
theorem Ordered.all_heard (h : s.Ordered owners) (hidle : s.busy .tester = none)
    {tasks : List (Task Job)}
    (hqueue : (s.app.worker .tester).queue = .job (.phase .stop) :: tasks) {i : Nat}
    (hsent : .sent i ∈ s.log) :
    ∃ outcome, outcome.isTerminal = true ∧ .handler i outcome ∈ s.log := by
  obtain ⟨howner, htaken⟩ := h.accounted.sent i hsent
  have htimeline : s.timeline = s.log.filterMap Entry.occasion? ++
      .phase .stop :: tasks.filterMap occasionOf := by
    rw [timeline, hqueue]
    rfl
  have hhushed : s.app.Hushed := by
    apply h.hushed
    rw [htimeline]
    exact List.mem_append_right _ List.mem_cons_self
  -- the ending of the command neither waits nor is queued, so it has arrived
  have htester : queuedIn s.app.testerWorker.queue i = 0 := by
    apply queuedIn_eq_zero
    intro outcome terminal hmem
    have hsilent := h.inLine.silent
    rw [htimeline, List.pairwise_append] at hsilent
    obtain ⟨-, hbehind, -⟩ := hsilent
    change _ ∈ (s.app.worker .tester).queue at hmem
    rw [hqueue] at hmem
    rcases List.mem_cons.mp hmem with heq | hmem
    · cases heq
    · have hlater := (List.pairwise_cons.mp hbehind).1 .traffic
        (List.mem_filterMap.mpr ⟨_, hmem, rfl⟩)
      exact hlater rfl rfl
  have hengine : queuedIn s.app.engineWorker.queue i = 0 := by
    apply queuedIn_eq_zero
    intro outcome terminal hmem
    have howner' := h.accounted.placed.queued .engine i outcome terminal hmem
    rw [howner] at howner'
    cases howner'
  have hlt := h.accounted.sound.inRange i htaken
  have hfound : s.app.cells[i]? = some s.app.cells[i] := Array.getElem?_eq_getElem hlt
  have hends : 0 < s.app.cells[i].ends := by
    have hendings := h.accounted.sound.endings i
    have hcount : 0 < s.app.router.table.taken.count i := List.count_pos_iff.mpr htaken
    rw [endingsFor, PendingTable.waitingFor, hhushed.entries, htester, hengine,
      PendingTable.takenFor, history_of_getElem? hfound] at hendings
    rw [Continuation.ends]
    simp only [List.countP_nil, Pi.zero_apply] at hendings
    omega
  -- no call is in progress, so the one that the ending has made is over
  have hquiet (busyWith : Bool) : s.app.cells[i].stage ≠ .busy busyWith := by
    have hbusy := h.accounted.not_busy hidle howner busyWith
    rwa [stage, history_of_getElem? hfound] at hbusy
  have hended := ((h.accounted.sound.orderly i _ hfound).ended hquiet hends).1
  obtain ⟨visit, hvisit, hlast⟩ := List.countP_pos_iff.mp (hended ▸ Nat.one_pos)
  cases visit with
  | returned => cases hlast
  | arrival outcome terminal called =>
    obtain ⟨hcalled, hterminal⟩ := Bool.and_eq_true_iff.mp hlast
    subst hcalled
    rw [← history_of_getElem? hfound] at hvisit
    exact ⟨outcome, hterminal, h.accounted.heard i outcome terminal howner hvisit⟩

end Stop

end Scene
end Switchboard.App
