import Switchboard.Proofs.App.Chronicle
import Switchboard.Proofs.Run.Course
import Switchboard.Proofs.Run.Phases
/-!
# What is performed along a course

A worker that takes a job performs it. What is logged of callbacks and of handlers is one entry for
each performance that concerns the tester, and a side is called with a message just when it performs
the message's arrival.
-/
namespace Switchboard.App

/-- Whether a callback or a handler of the tester has begun. -/
def Entry.isCallback : Entry → Bool
  | .sent _ => false
  | .handler .. | .message _ | .phase _ => true

namespace Performance

/-- What is logged of a performance. -/
def logged? (p : Performance) : Option Entry :=
  match p.job with
  | .resume .. => p.call?.bind fun call =>
    if call.handler.side = .tester then some (.handler call.cell call.outcome) else none
  | .arrival msg => if p.side = .tester ∧ p.app.tester.isSome then some (.message msg) else none
  | .phase callback => if p.app.tester.isSome then some (.phase callback) else none
  | .initExtension _ | .startExtension | .completion _ => none

/-- The message that a side is called with. -/
def message? (p : Performance) (side : Side) : Option Message :=
  match p.job with
  | .arrival msg =>
    if p.side = side ∧ (side = .engine ∨ p.app.tester.isSome) then some msg else none
  | .resume .. | .phase _ | .initExtension _ | .startExtension | .completion _ => none

end Performance

/-- The phase that an event shows. -/
def Event.phase? : Event → Option PhaseCallback
  | .phase begun _ => some begun
  | .outcome .. | .ack _ | .initExtension .. | .startExtension | .message _ | .action ..
  | .callback .. => none

/-- The message that an event shows. -/
def Event.message? : Event → Option Message
  | .message msg => some msg
  | .outcome .. | .ack _ | .initExtension .. | .startExtension | .phase .. | .action ..
  | .callback .. => none

theorem Opens.phase? {job : Job} {event : Event} (h : Opens job event)
    (hjob : ∀ callback, job ≠ .phase callback) : event.phase? = none := by
  cases h with
  | phase begun phase => exact absurd rfl (hjob begun)
  | _ => rfl

theorem Opens.message? {job : Job} {event : Event} (h : Opens job event)
    (hjob : ∀ msg, job ≠ .arrival msg) : event.message? = none := by
  cases h with
  | message msg => exact absurd rfl (hjob msg)
  | _ => rfl

/-- The performance of a worker that takes a job. -/
def Deed.performance? (s : Scene) : Deed → Option Performance
  | .act (.take side) => s.app.performance? (.task side)
  | .act (.operate _) | .act (.note _) | .act (.finish ..) | .act (.call _) | .act .proceed
  | .giveUp => none

namespace Scene

/-- What is seen of deeds that follow each other, each in the scene in which it is done. -/
def gather {α : Type} (see : Scene → Deed → List α) (s : Scene) : List Deed → List α
  | [] => []
  | deed :: deeds =>
    see s deed ++ match s.undergo deed with
      | none => []
      | some s => s.gather see deeds

/-- The performances along a course, in order. -/
def performances (s : Scene) (deeds : List Deed) : List Performance :=
  s.gather (fun s deed => (deed.performance? s).toList) deeds

section Gather

variable {s s' : Scene} {deed : Deed} {deeds : List Deed} {α : Type}
  {see : Scene → Deed → List α}

theorem gather_cons (hdeed : s.undergo deed = some s') (deeds : List Deed) :
    s.gather see (deed :: deeds) = see s deed ++ s'.gather see deeds := by
  rw [gather, hdeed]

theorem gather_append (hcourse : s.course deeds = some s') (more : List Deed) :
    s.gather see (deeds ++ more) = s.gather see deeds ++ s'.gather see more := by
  induction deeds generalizing s with
  | nil =>
    cases hcourse
    rfl
  | cons deed deeds ih =>
    obtain ⟨next, hdeed, hrest⟩ := Option.bind_eq_some_iff.mp hcourse
    rw [List.cons_append, gather_cons hdeed, gather_cons hdeed, ih hrest, List.append_assoc]

theorem filterMap_gather {β : Type} (f : α → Option β) (s : Scene) (deeds : List Deed) :
    (s.gather see deeds).filterMap f = s.gather (fun s deed => (see s deed).filterMap f) deeds := by
  induction deeds generalizing s with
  | nil => rfl
  | cons deed deeds ih =>
    rw [gather, gather, List.filterMap_append]
    cases s.undergo deed with
    | none => rfl
    | some next => exact congrArg _ (ih next)

end Gather

/-- Acts are deeds. -/
theorem course_map_act (s : Scene) (acts : List Act) : s.course (acts.map .act) = s.run acts := by
  induction acts generalizing s with
  | nil => rfl
  | cons act acts ih =>
    rw [List.map_cons, course, run]
    exact congrArg (Option.bind (s.perform act)) (funext ih)

section Performances

variable {s s' : Scene} {deed : Deed} {deeds : List Deed}

/-- The worker that has a job performs it when it takes it. -/
theorem performance?_take (s : Scene) (side : Side) :
    Deed.performance? s (.act (.take side)) =
      (s.app.worker side).queue.head?.bind (performing (s.app.popped side) side) := by
  rw [Deed.performance?, performance?, Worker.next]
  cases (s.app.worker side).queue with
  | nil => rfl
  | cons task tasks => rfl

/-- For a performance a worker takes a job. -/
theorem performance?_eq_some {p : Performance} (h : deed.performance? s = some p) :
    deed = .act (.take p.side) ∧ (∃ tasks, (s.app.worker p.side).queue = .job p.job :: tasks) ∧
      p.app = s.app.popped p.side := by
  cases deed with
  | giveUp => cases h
  | act act =>
    cases act with
    | take side =>
      rw [performance?_take] at h
      obtain ⟨task, htask, hperforming⟩ := Option.bind_eq_some_iff.mp h
      obtain ⟨tasks, hqueue⟩ := List.head?_eq_some_iff.mp htask
      cases task with
      | mark => cases hperforming
      | job job =>
        cases hperforming
        exact ⟨rfl, ⟨tasks, hqueue⟩, rfl⟩
    | operate | note | finish | call | proceed => cases h

/-- A worker that begins with a job logs what is logged of its performance. -/
theorem log_start_job (s : Scene) (side : Side) (job : Job) :
    (s.start side (.job job)).log =
      s.log ++ ({ app := s.app, side, job } : Performance).logged?.toList := by
  have hif (condition : Prop) [Decidable condition] (entry : Entry) :
      (if condition then [entry] else []) = (if condition then some entry else none).toList := by
    split
    · rfl
    · rfl
  cases job with
  | resume i outcome terminal =>
    change (s.resume side i outcome terminal).log = _
    rw [resume, Performance.logged?, Performance.call?]
    dsimp only
    cases ((s.app.cells.getD i { slot := .released }).takeOut outcome terminal).1 with
    | none => rfl
    | some called => exact congrArg (s.log ++ ·) (hif _ _)
  | arrival msg => exact congrArg (s.log ++ ·) (hif _ _)
  | phase callback => exact congrArg (s.log ++ ·) (hif _ _)
  | initExtension properties => rfl
  | startExtension => rfl
  | completion completion => rfl

theorem isCallback_of_logged {p : Performance} {entry : Entry} (h : p.logged? = some entry) :
    entry.isCallback = true := by
  obtain ⟨a, side, job⟩ := p
  have hif {condition : Prop} [Decidable condition] {logged : Entry}
      (hlogged : logged.isCallback = true)
      (h : (if condition then some logged else none) = some entry) : entry.isCallback = true := by
    split at h
    · cases h
      exact hlogged
    · cases h
  cases job with
  | resume i outcome terminal =>
    obtain ⟨call, -, hentry⟩ := Option.bind_eq_some_iff.mp h
    exact hif rfl hentry
  | arrival msg => exact hif rfl h
  | phase callback => exact hif rfl h
  | initExtension properties => cases h
  | startExtension => cases h
  | completion completion => cases h

/-- What is logged of callbacks and handlers when something happens. -/
theorem log_undergo (hdeed : s.undergo deed = some s') :
    s'.log.filter (·.isCallback) = s.log.filter (·.isCallback) ++
      (deed.performance? s).toList.filterMap (·.logged?) := by
  have hsame (hlog : s'.log = s.log) : s'.log.filter (·.isCallback) =
      s.log.filter (·.isCallback) ++ [] := by rw [hlog, List.append_nil]
  cases deed with
  | giveUp =>
    rcases giveUp_eq_some hdeed with ⟨-, rfl⟩ | ⟨_, -, rfl⟩
    · exact hsame rfl
    · exact hsame rfl
  | act act =>
    cases act with
    | operate op =>
      cases hdeed
      rw [List.filter_append]
      refine congrArg _ (List.filter_eq_nil_iff.mpr fun entry hentry => ?_)
      obtain ⟨i, rfl⟩ := Operation.eq_sent_of_mem hentry
      exact Bool.false_ne_true
    | note notes =>
      cases hdeed
      exact hsame rfl
    | take side =>
      obtain ⟨-, task, tasks, hqueue, rfl⟩ := take_eq_some hdeed
      rw [performance?_take, hqueue]
      cases task with
      | mark => exact hsame rfl
      | job job =>
        rw [log_start_job, List.filter_append]
        refine congrArg _ ?_
        dsimp only [List.head?_cons, Option.bind_some, performing, Option.toList_some,
          List.filterMap_cons, List.filterMap_nil]
        cases hentry : ({ app := s.app.popped side, side, job } : Performance).logged? with
        | none => rfl
        | some entry => simp [isCallback_of_logged hentry]
    | finish side ended =>
      obtain ⟨business, -, rfl⟩ := Option.map_eq_some_iff.mp hdeed
      exact hsame rfl
    | call tester =>
      obtain ⟨-, rfl⟩ := call_eq_some hdeed
      exact hsame rfl
    | proceed => exact hsame (log_proceed hdeed)

theorem performances_singleton (hdeed : s.undergo deed = some s') :
    s.performances [deed] = (deed.performance? s).toList := by
  rw [performances, gather_cons hdeed]
  exact List.append_nil _

theorem performances_append (hcourse : s.course deeds = some s') (more : List Deed) :
    s.performances (deeds ++ more) = s.performances deeds ++ s'.performances more :=
  gather_append hcourse more

/-- For every performance a worker has taken a job. -/
theorem exists_of_mem_performances {p : Performance} (hp : p ∈ s.performances deeds) :
    ∃ earlier later s₁ tasks, deeds = earlier ++ .act (.take p.side) :: later ∧
      s.course earlier = some s₁ ∧ (s₁.app.worker p.side).queue = .job p.job :: tasks ∧
      p.app = s₁.app.popped p.side := by
  induction deeds generalizing s with
  | nil => cases hp
  | cons deed deeds ih =>
    rcases List.mem_append.mp hp with hp | hp
    · obtain ⟨rfl, ⟨tasks, hqueue⟩, happ⟩ := performance?_eq_some (Option.mem_toList.mp hp)
      exact ⟨[], deeds, s, tasks, rfl, rfl, hqueue, happ⟩
    · cases hdeed : s.undergo deed with
      | none =>
        rw [hdeed] at hp
        cases hp
      | some next =>
        rw [hdeed] at hp
        obtain ⟨earlier, later, s₁, tasks, rfl, hearlier, hqueue, happ⟩ := ih hp
        refine ⟨deed :: earlier, later, s₁, tasks, rfl, ?_, hqueue, happ⟩
        rw [course, hdeed]
        exact hearlier

/-- What is logged of callbacks and handlers along a course. -/
theorem log_course (hcourse : s.course deeds = some s') :
    s'.log.filter (·.isCallback) = s.log.filter (·.isCallback) ++
      (s.performances deeds).filterMap (·.logged?) := by
  induction deeds generalizing s with
  | nil =>
    cases hcourse
    exact (List.append_nil _).symm
  | cons deed deeds ih =>
    obtain ⟨next, hdeed, hrest⟩ := Option.bind_eq_some_iff.mp hcourse
    rw [ih hrest, log_undergo hdeed, performances, performances, gather_cons hdeed,
      List.filterMap_append, List.append_assoc]

end Performances

end Scene

namespace Performance

theorem bind_ite_of_none {α β : Type} {condition : Prop} [Decidable condition] {x : α}
    {f : α → Option β} (h : f x = none) : (if condition then some x else none).bind f = none := by
  split
  · exact h
  · rfl

/-- What no beginning of the job shows is not shown. -/
theorem bind_opening?_of_none {α : Type} {p : Performance} {see : Event → Option α}
    (hsee : ∀ event, Opens p.job event → see event = none) (side : Side) :
    (p.opening? side).bind see = none := by
  cases hopening : p.opening? side with
  | none => rfl
  | some event => exact hsee event (opens_of_opening? hopening)

/-- A phase is logged just when its beginning is shown. -/
theorem phase?_opening (p : Performance) :
    (p.opening? .tester).bind (·.phase?) = p.logged?.bind (·.phase?) := by
  obtain ⟨a, side, job⟩ := p
  have hother (hjob : ∀ callback, job ≠ .phase callback)
      (hlogged : ({ app := a, side, job } : Performance).logged?.bind (·.phase?) = none) :
      (({ app := a, side, job } : Performance).opening? .tester).bind (·.phase?) =
        ({ app := a, side, job } : Performance).logged?.bind (·.phase?) := by
    rw [hlogged]
    exact bind_opening?_of_none (fun _ hopens => hopens.phase? hjob) .tester
  cases job with
  | phase callback =>
    dsimp only [opening?, role?, logged?]
    cases a.tester with
    | none => rfl
    | some script => rfl
  | resume i outcome terminal =>
    refine hother nofun ?_
    dsimp only [logged?]
    cases ({ app := a, side, job := .resume i outcome terminal } : Performance).call? with
    | none => rfl
    | some call => exact bind_ite_of_none rfl
  | arrival msg => exact hother nofun (bind_ite_of_none rfl)
  | initExtension properties => exact hother nofun rfl
  | startExtension => exact hother nofun rfl
  | completion completion => exact hother nofun rfl

/-- A message that a side handles by rules is shown. -/
theorem message?_opening (p : Performance) {side : Side}
    (hrules : side = .tester ∨ ∃ script, p.app.extension = .scripted script) :
    (p.opening? side).bind (·.message?) = p.message? side := by
  obtain ⟨a, other, job⟩ := p
  cases job with
  | arrival msg =>
    dsimp only [opening?, role?, message?]
    by_cases hside : other = side
    · subst hside
      cases other with
      | tester =>
        dsimp only [rules?]
        cases a.tester with
        | none => rfl
        | some script => rfl
      | engine =>
        obtain ⟨script, hscript⟩ := hrules.resolve_left nofun
        dsimp only at hscript
        dsimp only [rules?]
        rw [hscript]
        rfl
    · rw [if_neg fun h => hside h.1]
      cases a.rules? other with
      | none => rfl
      | some rules => exact congrArg (Option.bind · _) (if_neg hside)
  | resume | initExtension | startExtension | phase | completion =>
    refine bind_opening?_of_none (fun event hopens => hopens.message? fun msg hjob => ?_) side
    cases hjob

/-- The call of a handler of the tester is logged. -/
theorem logged?_of_call? {p : Performance} {call : Call} (h : p.call? = some call)
    (hside : call.handler.side = .tester) :
    p.logged? = some (.handler call.cell call.outcome) := by
  obtain ⟨a, side, job⟩ := p
  cases job with
  | resume i outcome terminal =>
    dsimp only [logged?]
    rw [h, Option.bind_some, if_pos hside]
  | _ => cases h

/-- What is logged of a handler is a call of that handler. -/
theorem exists_call_of_logged? {p : Performance} {i : Nat} {outcome : Outcome}
    (h : p.logged? = some (.handler i outcome)) :
    ∃ call, p.call? = some call ∧ call.cell = i ∧ call.outcome = outcome ∧
      call.handler.side = .tester := by
  obtain ⟨a, side, job⟩ := p
  have hother {condition : Prop} [Decidable condition] {entry : Entry}
      (hne : entry ≠ .handler i outcome) :
      (if condition then some entry else none) ≠ some (.handler i outcome) := by
    split
    · exact fun heq => hne (Option.some.inj heq)
    · exact nofun
  cases job with
  | resume k outcome' terminal =>
    obtain ⟨call, hcall, hentry⟩ := Option.bind_eq_some_iff.mp h
    split at hentry
    · next hside =>
      cases hentry
      exact ⟨call, hcall, rfl, rfl, hside⟩
    · cases hentry
  | arrival msg => exact absurd h (hother nofun)
  | phase callback => exact absurd h (hother nofun)
  | initExtension properties => cases h
  | startExtension => cases h
  | completion completion => cases h

/-- A message that the tester is called with is logged. -/
theorem logged?_of_message? {p : Performance} {msg : Message} (h : p.message? .tester = some msg) :
    p.logged? = some (.message msg) := by
  obtain ⟨a, side, job⟩ := p
  cases job with
  | arrival arrived =>
    dsimp only [message?] at h
    split at h
    · next hheard =>
      cases h
      exact if_pos ⟨hheard.1, hheard.2.resolve_left nofun⟩
    · cases h
  | _ => cases h

end Performance

end Switchboard.App
