import Switchboard.Proofs.Run.Arrivals
/-!
# What a side is called with

A worker performs the jobs that it takes, in order, and whatever a side is shown at the beginning of
a callback is shown by its own worker. So the messages that are handed to a side are those that its
callbacks are called with, and the initialisation is the first callback of an extension.
-/
namespace Switchboard.App

/-- The job of a task, if it has one. -/
def jobOf : Task Job → Option Job
  | .job job => some job
  | .mark => none

/-- Whether an event shows that the extension is initialised. -/
def Event.isInit : Event → Bool
  | .initExtension .. => true
  | .outcome .. | .ack _ | .message _ | .startExtension | .phase .. | .action .. | .callback .. =>
    false

/-- Only the initialisation is shown as one. -/
theorem Opens.isInit {job : Job} {event : Event} (h : Opens job event)
    (hinit : event.isInit = true) : App.isInit (.job job) = true := by
  cases h with
  | initExtension name properties => rfl
  | _ => cases hinit

namespace Performance

/-- The job that a side's worker performs. -/
def job? (p : Performance) (side : Side) : Option Job := if p.side = side then some p.job else none

end Performance

/-- Handlers are called by the workers of their own sides. -/
theorem Placed.side_of_call? {a : App} {owners : List Side} (h : a.Placed owners)
    {p : Performance} {tasks : List (Task Job)}
    (hqueue : (a.worker p.side).queue = .job p.job :: tasks) (hcells : p.app.cells = a.cells)
    {call : Call} (hcall : p.call? = some call) : call.handler.side = p.side := by
  have hwaits := Performance.handler?_of_call? hcall
  rw [Performance.job_of_call? hcall] at hqueue
  have howner := h.queued p.side call.cell _ _ (hqueue ▸ List.mem_cons_self)
  rw [handler?, hcells] at hwaits
  obtain ⟨c, hfound, hhandler⟩ := Option.bind_eq_some_iff.mp hwaits
  rw [h.handlers call.cell c call.handler hfound (Continuation.slot_of_handler? hhandler)] at howner
  exact Option.some.inj howner

namespace Scene

/-- What is shown on a side along a course when callbacks begin, in order. -/
def shown (s : Scene) (side : Side) (deeds : List Deed) : List Event :=
  (s.performances deeds).filterMap (·.opening? side)

/-- What the workers of an application that was built perform along a course. Each side's worker
performs the jobs that it takes, and nothing is shown on a side by the other one's. The side hears
the messages of the performances. Where it has rules for them, each is shown to it and handled by
the rule of its kind. -/
structure Performed (built : App) (s : Scene) (deeds : List Deed) : Prop where
  jobs : ∀ side, (s.performances deeds).filterMap (·.job? side) =
    (s.taken side deeds).filterMap jobOf
  heard : ∀ side, s.heard side deeds = (s.performances deeds).filterMap (·.message? side)
  calls : ∀ p ∈ s.performances deeds, ∀ side msg rules, p.message? side = some msg →
    p.app.rules? side = some rules →
    p.role? = some { side, opening := .message msg, script := (rules.match? msg).getD [] }
  own : ∀ p ∈ s.performances deeds, ∀ side event, p.opening? side = some event → p.side = side
  same : ∀ p ∈ s.performances deeds, p.app.name = built.name ∧ p.app.extension = built.extension
  carriedOut : ∀ p ∈ s.performances deeds, p.CarriedOut

section Performed

variable {s s' : Scene} {deed : Deed} {deeds : List Deed} {side : Side}

theorem job?_performance (s : Scene) (side : Side) (deed : Deed) :
    (deed.performance? s).toList.filterMap (·.job? side) =
      (deed.taken s side).filterMap jobOf := by
  cases deed with
  | giveUp => rfl
  | act act =>
    cases act with
    | operate | note | finish | call | proceed => rfl
    | take other =>
      rw [performance?_take, Deed.taken]
      by_cases hside : other = side
      · subst hside
        rw [if_pos rfl, List.take_one]
        rcases (s.app.worker other).queue.head? with _ | job | _
        · rfl
        · simp [performing, Performance.job?, jobOf]
        · rfl
      · rw [if_neg hside]
        rcases (s.app.worker other).queue.head? with _ | job | _
        · rfl
        · simp [performing, Performance.job?, hside]
        · rfl

/-- A side hears the message of a job that its worker performs, if anybody listens. -/
theorem message?_eq (p : Performance) (side : Side) :
    p.message? side = if side = .engine ∨ p.app.tester.isSome then
      (p.job? side).bind (arrivalOf <| .job ·) else none := by
  obtain ⟨a, other, job⟩ := p
  cases job with
  | arrival msg =>
    by_cases hside : other = side
    · simp [Performance.message?, Performance.job?, hside, arrivalOf]
    · simp [Performance.message?, Performance.job?, hside]
  | _ =>
    by_cases hside : other = side
    · simp [Performance.message?, Performance.job?, hside, arrivalOf]
    · simp [Performance.message?, Performance.job?, hside]

theorem message?_performance (s : Scene) (side : Side) (deed : Deed) :
    (deed.performance? s).toList.filterMap (·.message? side) = deed.heard s side := by
  have hjobs : (deed.taken s side).filterMap arrivalOf =
      ((deed.performance? s).toList.filterMap (·.job? side)).filterMap (arrivalOf <| .job ·) := by
    rw [job?_performance, List.filterMap_filterMap]
    congr 1
    funext task
    cases task with
    | job job => rfl
    | mark => rfl
  rw [Deed.heard, hjobs, List.filterMap_filterMap]
  cases hp : deed.performance? s with
  | none => simp
  | some p =>
    obtain ⟨-, -, happ⟩ := performance?_eq_some hp
    have htester : p.app.tester = s.app.tester := by rw [happ, popped, tester_setWorker]
    rw [Option.toList_some, List.filterMap_cons, List.filterMap_cons, message?_eq, htester]
    by_cases hlistens : side = .engine ∨ s.app.tester.isSome
    · rw [if_pos hlistens, if_pos hlistens]
      rfl
    · rw [if_neg hlistens, if_neg hlistens, List.filterMap_nil]

theorem jobs_performances (s : Scene) (side : Side) (deeds : List Deed) :
    (s.performances deeds).filterMap (·.job? side) = (s.taken side deeds).filterMap jobOf := by
  rw [performances, taken, filterMap_gather, filterMap_gather]
  congr 1
  funext s deed
  exact job?_performance s side deed

theorem heard_eq (s : Scene) (side : Side) (deeds : List Deed) :
    s.heard side deeds = (s.performances deeds).filterMap (·.message? side) := by
  rw [performances, heard, filterMap_gather]
  congr 1
  funext s deed
  exact (message?_performance s side deed).symm

/-- A message that is heard is shown, and handled by the rule of its kind. -/
theorem role?_of_message? {p : Performance} {msg : Message} {rules : MessageRules}
    (hmessage : p.message? side = some msg) (hrules : p.app.rules? side = some rules) :
    p.role? = some { side, opening := .message msg, script := (rules.match? msg).getD [] } := by
  obtain ⟨a, other, job⟩ := p
  cases job with
  | arrival arrived =>
    dsimp only [Performance.message?] at hmessage
    split at hmessage
    · next hheard =>
      cases hmessage
      obtain ⟨rfl, -⟩ := hheard
      dsimp only at hrules
      dsimp only [Performance.role?]
      rw [hrules, Option.map_some]
    · cases hmessage
  | _ => cases hmessage

/-- A handler plays its role on its own side. -/
theorem side_of_call {a : App} {call : Call} {role : Role} (h : call.role? a = some role) :
    role.side = call.handler.side := by
  obtain ⟨cell, handler, number, outcome, terminal⟩ := call
  cases handler with
  | scripted side tag followUp panicOn current =>
    cases h
    rfl
  | foreign i listener =>
    cases listener with
    | none => cases h
    | some listener =>
      cases h
      rfl
  | promise i => cases h
  | silent => cases h

/-- A worker plays roles of its own side, if handlers and tasks are where they belong. -/
theorem side_of_role {p : Performance} {role : Role}
    (htask : isLater p.side (.job p.job) = true ∨ isInit (.job p.job) = true ∧ p.side = .engine)
    (hcall : ∀ call, p.call? = some call → call.handler.side = p.side)
    (h : p.role? = some role) : role.side = p.side := by
  obtain ⟨a, side, job⟩ := p
  cases job with
  | resume i outcome terminal =>
    obtain ⟨call, hcalled, hrole⟩ := Option.bind_eq_some_iff.mp h
    exact (side_of_call hrole).trans (hcall call hcalled)
  | arrival msg =>
    obtain ⟨rules, -, rfl⟩ := Option.map_eq_some_iff.mp h
    rfl
  | initExtension properties =>
    obtain ⟨script, -, rfl⟩ := Option.map_eq_some_iff.mp h
    obtain ⟨-, hengine⟩ := htask.resolve_left Bool.false_ne_true
    exact hengine.symm
  | startExtension =>
    obtain ⟨script, -, rfl⟩ := Option.map_eq_some_iff.mp h
    exact (of_decide_eq_true (htask.resolve_right fun h => Bool.false_ne_true h.1)).symm
  | phase callback =>
    obtain ⟨script, -, rfl⟩ := Option.map_eq_some_iff.mp h
    exact (of_decide_eq_true (htask.resolve_right fun h => Bool.false_ne_true h.1)).symm
  | completion completion =>
    have htester := of_decide_eq_true (htask.resolve_right fun h => Bool.false_ne_true h.1)
    cases completion with
    | scripted ack =>
      cases h
      exact htester.symm
    | foreign i handle callback =>
      cases h
      exact htester.symm
    | promise i => cases h

/-- Nobody exchanges the extension. -/
theorem extension_undergo (hdeed : s.undergo deed = some s') :
    s'.app.extension = s.app.extension := by
  cases deed with
  | giveUp =>
    rcases giveUp_eq_some hdeed with ⟨-, rfl⟩ | ⟨_, -, rfl⟩
    · rfl
    · exact (hands_abort s.app "run timed out").extension
  | act act =>
    cases act with
    | operate op =>
      cases hdeed
      exact (op.hands s.app).extension
    | note notes =>
      cases hdeed
      rfl
    | take side =>
      exact (unshaken_take hdeed).1.extension.trans (extension_setWorker s.app side _)
    | finish side ended => exact (unshaken_finish hdeed).1.extension
    | call tester =>
      obtain ⟨-, rfl⟩ := call_eq_some hdeed
      rfl
    | proceed =>
      rcases proceed_cases hdeed with ⟨α, p, next, hp, rfl, -, -⟩ | ⟨-, rfl⟩ |
        ⟨side, -, rfl⟩ | ⟨-, rfl⟩
      · exact (hp.withholds s.app).extension
      · exact (hands_abort s.app "tester dropped").extension
      · exact extension_setWorker s.app side _
      · rfl

theorem extension_course (hcourse : s.course deeds = some s') :
    s'.app.extension = s.app.extension := by
  induction deeds generalizing s with
  | nil =>
    cases hcourse
    rfl
  | cons deed deeds ih =>
    obtain ⟨next, hdeed, hrest⟩ := Option.bind_eq_some_iff.mp hcourse
    exact (ih hrest).trans (extension_undergo hdeed)

end Performed

section Built

variable {config : Config} {name : Option String} {properties : String} {extension : Extension}
  {built : App} {s : Scene} {deeds : List Deed}

/-- Besides the initialisation of the extension only such tasks are queued as may be queued later. -/
theorem isLater_of_course (hbuilt : build config name properties extension = .ok built)
    (hcourse : (ofApp built).course deeds = some s) {side : Side} {task : Task Job}
    (htask : task ∈ (s.app.worker side).queue) :
    isLater side task = true ∨ isInit task = true ∧ side = .engine := by
  obtain ⟨-, htester, properties, hengine⟩ := housed_ofApp hbuilt
  obtain ⟨more, hqueue, -, hlater⟩ := course_queue hcourse side
  have hmem : task ∈ (built.worker side).queue ++ more :=
    hqueue ▸ List.mem_append_right _ htask
  rcases List.mem_append.mp hmem with hfirst | hmore
  · cases side with
    | tester =>
      rw [htester] at hfirst
      cases hfirst
    | engine =>
      rw [hengine] at hfirst
      obtain rfl := List.mem_singleton.mp hfirst
      exact Or.inr ⟨rfl, rfl⟩
  · exact Or.inl (hlater task hmore)

/-- For every performance a worker has taken a job when a course had come so far. -/
theorem exists_course_of_mem (hcourse : (ofApp built).course deeds = some s) {later : List Deed}
    {p : Performance} (hp : p ∈ s.performances later) :
    ∃ before s₁ tasks, (ofApp built).course before = some s₁ ∧
      (s₁.app.worker p.side).queue = .job p.job :: tasks ∧ p.app = s₁.app.popped p.side := by
  obtain ⟨earlier, rest, s₁, tasks, rfl, hearlier, hqueue, happ⟩ := exists_of_mem_performances hp
  refine ⟨deeds ++ earlier, s₁, tasks, ?_, hqueue, happ⟩
  rw [course_append, hcourse]
  exact hearlier

/-- Whatever the workers perform along a course. -/
theorem performed_ofApp (hbuilt : build config name properties extension = .ok built)
    (hcourse : (ofApp built).course deeds = some s) (later : List Deed) :
    s.Performed built later where
  jobs side := jobs_performances s side later
  heard side := heard_eq s side later
  calls p _ side msg rules := role?_of_message?
  own p hp side event hopening := by
    obtain ⟨before, s₁, tasks, hbefore, hqueue, happ⟩ := exists_course_of_mem hcourse hp
    obtain ⟨owners, -, hlasting⟩ := (lasting_ofApp hbuilt).course hbefore
    obtain ⟨role, hrole, hside⟩ := Option.bind_eq_some_iff.mp hopening
    have htask := isLater_of_course hbuilt hbefore (hqueue ▸ List.mem_cons_self)
    have hcells : p.app.cells = s₁.app.cells := by rw [happ, popped, cells_setWorker]
    have hown := side_of_role htask
      (fun call => hlasting.accounted.placed.side_of_call? hqueue hcells) hrole
    split at hside
    · next heq => exact hown.symm.trans heq
    · cases hside
  same p hp := by
    obtain ⟨before, s₁, tasks, hbefore, hqueue, happ⟩ := exists_course_of_mem hcourse hp
    rw [happ, popped, name_setWorker, extension_setWorker]
    exact ⟨((housed_ofApp hbuilt).1.course hbefore).name, extension_course hbefore⟩
  carriedOut p _ := p.carriedOut

/-- The messages that are shown to a side which has rules for them are those that it hears. -/
theorem Performed.message?_shown (h : s.Performed built deeds) {side : Side}
    (hrules : side = .tester ∨ ∃ script, built.extension = .scripted script) :
    (s.shown side deeds).filterMap (·.message?) = s.heard side deeds := by
  rw [h.heard, shown, List.filterMap_filterMap]
  apply List.filterMap_congr
  intro p hp
  apply p.message?_opening
  rw [(h.same p hp).2]
  exact hrules

/-- A scripted extension whose worker first initialises it, and never again, is shown that first, and
never again. -/
theorem Performed.shown_engine (h : s.Performed built deeds) {script : ExtensionScript}
    (hscript : built.extension = .scripted script) {properties : Json} {tasks : List (Task Job)}
    (htaken : s.taken .engine deeds = .job (.initExtension properties) :: tasks)
    (hinit : ∀ task ∈ tasks, isInit task = false) :
    ∃ rest, s.shown .engine deeds = .initExtension built.name properties :: rest ∧
      ∀ event ∈ rest, event.isInit = false := by
  have hjobs : (s.performances deeds).filterMap (·.job? .engine) =
      .initExtension properties :: tasks.filterMap jobOf := by
    rw [h.jobs, htaken]
    rfl
  obtain ⟨before, p, after, hps, hbefore, hp, hafter⟩ := List.filterMap_eq_cons_iff.mp hjobs
  have hside {q : Performance} {event : Event} (hq : q ∈ s.performances deeds)
      (hopening : q.opening? .engine = some event) : q.job? .engine = some q.job :=
    if_pos (h.own q hq .engine event hopening)
  have hsilent : before.filterMap (·.opening? .engine) = [] := by
    rw [List.filterMap_eq_nil_iff]
    intro q hq
    cases hopening : q.opening? .engine with
    | none => rfl
    | some event =>
      have hmem : q ∈ s.performances deeds := hps ▸ List.mem_append_left _ hq
      cases (hbefore q hq).symm.trans (hside hmem hopening)
  have hfirst : p.opening? .engine = some (.initExtension built.name properties) := by
    have hmem : p ∈ s.performances deeds := hps ▸ List.mem_append_right _ List.mem_cons_self
    obtain ⟨hname, hextension⟩ := h.same p hmem
    obtain ⟨a, side, job⟩ := p
    obtain ⟨-, hjob⟩ := Option.ite_none_right_eq_some.mp hp
    cases hjob
    dsimp only at hname hextension
    dsimp only [Performance.opening?, Performance.role?]
    rw [hextension, hscript, hname]
    rfl
  refine ⟨after.filterMap (·.opening? .engine), ?_, fun event hevent => ?_⟩
  · rw [shown, hps, List.filterMap_append, hsilent, List.filterMap_cons, hfirst]
    rfl
  · obtain ⟨q, hq, hopening⟩ := List.mem_filterMap.mp hevent
    have hmem : q ∈ s.performances deeds :=
      hps ▸ List.mem_append_right _ (List.mem_cons_of_mem _ hq)
    have hjob : q.job ∈ tasks.filterMap jobOf :=
      hafter ▸ List.mem_filterMap.mpr ⟨q, hq, hside hmem hopening⟩
    obtain ⟨task, htask, heq⟩ := List.mem_filterMap.mp hjob
    cases task with
    | mark => cases heq
    | job job =>
      cases heq
      cases hevent : event.isInit with
      | false => rfl
      | true =>
        have hnot := hinit (.job q.job) htask
        rw [(Performance.opens_of_opening? hopening).isInit hevent] at hnot
        cases hnot

/-- The first task of the extension's worker initialises the extension, and no other does. -/
theorem taken_engine (hbuilt : build config name properties extension = .ok built)
    (hcourse : (ofApp built).course deeds = some s) :
    ∃ properties, ((ofApp built).taken .engine deeds = [] ∧ s.runner ≠ .returned) ∨
      ∃ tasks, (ofApp built).taken .engine deeds = .job (.initExtension properties) :: tasks ∧
        ∀ task ∈ tasks, isInit task = false := by
  obtain ⟨hnew, -, properties, hengine⟩ := housed_ofApp hbuilt
  obtain ⟨more, hqueue, -, hlater⟩ := course_queue hcourse .engine
  change _ = (built.worker .engine).queue ++ more at hqueue
  rw [hengine] at hqueue
  refine ⟨properties, ?_⟩
  cases htaken : (ofApp built).taken .engine deeds with
  | nil =>
    refine Or.inl ⟨rfl, fun hreturned => ?_⟩
    rw [htaken, (hnew.course hcourse).queue_of_returned hreturned .engine] at hqueue
    cases hqueue
  | cons task tasks =>
    rw [htaken] at hqueue
    obtain ⟨rfl, hrest⟩ := List.cons.inj hqueue
    have hmore : tasks ++ (s.app.worker .engine).queue = more := hrest
    refine Or.inr ⟨tasks, rfl, fun task htask => isInit_of_isLater (hlater task ?_)⟩
    rw [← hmore]
    exact List.mem_append_left _ htask

/-- An extension whose worker performs nothing at first is initialised by what it takes then. -/
theorem taken_engine_later (hbuilt : build config name properties extension = .ok built)
    (hcourse : (ofApp built).course deeds = some s) (hnone : (ofApp built).performances deeds = [])
    {later : List Deed} {s' : Scene} (hlater : s.course later = some s')
    (hreturned : s'.runner = .returned) :
    ∃ properties tasks, s.taken .engine later = .job (.initExtension properties) :: tasks ∧
      ∀ task ∈ tasks, isInit task = false := by
  have hwhole : (ofApp built).course (deeds ++ later) = some s' := by
    rw [course_append, hcourse]
    exact hlater
  have hnothing : ((ofApp built).taken .engine deeds).filterMap jobOf = [] := by
    rw [← jobs_performances, hnone]
    rfl
  obtain ⟨properties, ⟨-, hnot⟩ | ⟨tasks, htaken, hinit⟩⟩ := taken_engine hbuilt hwhole
  · exact absurd hreturned hnot
  · rw [taken, gather_append hcourse] at htaken
    obtain ⟨other, ⟨hnil, -⟩ | ⟨first, hfirst, -⟩⟩ := taken_engine hbuilt hcourse
    · rw [taken] at hnil
      rw [hnil, List.nil_append] at htaken
      exact ⟨properties, tasks, htaken, hinit⟩
    · rw [hfirst] at hnothing
      cases hnothing

/-- Whatever has happened to an application that was built, all that is handed over is what was sent,
addressed to the side that gets it. The extension is called with the messages that were handed to it,
once for each and in the order of the sends, up to those that are still queued; so is the tester from
when it is installed, beginning with what was queued for it by then. When the application has been
torn down, none is left. The first task of the extension's worker initialises the extension, and no
other does. How callbacks end makes no difference: the callbacks are performed that these tasks are
for, each message is shown to its side, and the rule of its kind is followed. A program that runs a
tester to the end, whatever it did with the application before, makes one of these courses; its
events show the messages, and the initialisation before anything else of the extension. -/
theorem messages_arrive_in_order (hbuilt : build config name properties extension = .ok built)
    (hcourse : (ofApp built).course deeds = some s) :
    s.app.HandsFaithfully ∧
    (ofApp built).Performed built deeds ∧
    ((ofApp built).heard .engine deeds ++ s.app.inbox .engine = (ofApp built).handed .engine deeds ∧
      (s.runner = .returned →
        (ofApp built).heard .engine deeds = (ofApp built).handed .engine deeds)) ∧
    (∀ later s', s.course later = some s' → s.app.tester.isSome = true →
      s.Performed built later ∧
      s.heard .tester later ++ s'.app.inbox .tester =
          s.app.inbox .tester ++ s.handed .tester later ∧
        (s'.runner = .returned →
          s.heard .tester later = s.app.inbox .tester ++ s.handed .tester later)) ∧
    (∃ properties, ((ofApp built).taken .engine deeds = [] ∧ s.runner ≠ .returned) ∨
      ∃ tasks, (ofApp built).taken .engine deeds = .job (.initExtension properties) :: tasks ∧
        ∀ task ∈ tasks, isInit task = false) ∧
    ∀ (α : Type) (p : Program α), Operates p → ∀ tester report,
      ((Program.runToEnd tester).run (p.run built).2).1 = .ok report →
      ∃ (acts more : List Act) (s₁ s₂ : Scene), (ofApp built).course (acts.map .act) = some s₁ ∧
        s₁.app = { (p.run built).2 with tester := some tester } ∧
        s₁.course (more.map .act) = some s₂ ∧ s₂.runner = .returned ∧
        s₂.app = ((Program.runToEnd tester).run (p.run built).2).2 ∧
        Chronicles (s₁.performances (more.map .act)) (p.run built).2 s₂.app ∧
        (s₁.shown .tester (more.map .act)).filterMap (·.message?) =
          s₁.app.inbox .tester ++ s₁.handed .tester (more.map .act) ∧
        ∀ script, built.extension = .scripted script →
          (s₁.shown .engine (more.map .act)).filterMap (·.message?) =
            s₁.app.inbox .engine ++ s₁.handed .engine (more.map .act) ∧
          ∃ properties rest, s₁.shown .engine (more.map .act) =
              .initExtension built.name properties :: rest ∧
            ∀ event ∈ rest, event.isInit = false := by
  obtain ⟨hnew, -, properties, hengine⟩ := housed_ofApp hbuilt
  have hs := hnew.course hcourse
  have hnothing {s : Scene} (h : s.Housed built.name) (hreturned : s.runner = .returned)
      (side : Side) : s.app.inbox side = [] := by
    rw [inbox, h.queue_of_returned hreturned side]
    rfl
  have hall {s s' : Scene} {later : List Deed} {side : Side} (h : s.Housed built.name)
      (hlater : s.course later = some s') (hreturned : s'.runner = .returned)
      (hheard : s.heard side later = (s.taken side later).filterMap arrivalOf) :
      s.heard side later = s.app.inbox side ++ s.handed side later := by
    have harrivals := arrivals_eq hlater hheard
    rwa [hnothing (h.course hlater) hreturned, List.append_nil] at harrivals
  have hbegin : (ofApp built).course [] = some (ofApp built) := rfl
  refine ⟨hs.handsFaithfully, performed_ofApp hbuilt hbegin deeds, ?_,
    fun later s' hlater htester => ?_, taken_engine hbuilt hcourse,
    fun α p hp tester report hreport => ?_⟩
  · have hnone : (ofApp built).app.inbox .engine = [] := by
      change (built.worker .engine).queue.filterMap arrivalOf = []
      rw [hengine]
      rfl
    have harrivals := arrivals_eq hcourse (heard_engine _ deeds)
    rw [hnone] at harrivals
    refine ⟨harrivals, fun hreturned => ?_⟩
    rw [hall hnew hcourse hreturned (heard_engine _ deeds), hnone, List.nil_append]
  · have hheard := hs.heard_tester (Or.inl htester) hlater
    exact ⟨performed_ofApp hbuilt hcourse later, arrivals_eq hlater hheard,
      fun hreturned => hall hs hlater hreturned hheard⟩
  · obtain ⟨acts, more, s₁, s₂, hprepared, hnone, happ, hmore, hreturned, hfinal, hchronicles⟩ :=
      exists_run_of_runToEnd hbuilt hp hreport
    rw [← course_map_act] at hprepared hmore
    have hs₁ := hnew.course hprepared
    have hperformed := performed_ofApp hbuilt hprepared (more.map .act)
    have htester : s₁.app.tester.isSome = true := by
      rw [happ]
      rfl
    refine ⟨acts, more, s₁, s₂, hprepared, happ, hmore, hreturned, hfinal, hfinal ▸ hchronicles, ?_,
      fun script hscript => ⟨?_, ?_⟩⟩
    · rw [hperformed.message?_shown (Or.inl rfl)]
      exact hall hs₁ hmore hreturned (hs₁.heard_tester (Or.inl htester) hmore)
    · rw [hperformed.message?_shown (Or.inr ⟨script, hscript⟩)]
      exact hall hs₁ hmore hreturned (heard_engine s₁ _)
    · obtain ⟨properties, tasks, htaken, hinit⟩ :=
        taken_engine_later hbuilt hprepared hnone hmore hreturned
      exact ⟨properties, hperformed.shown_engine hscript htaken hinit⟩

/-- The tester sends data and a ping when it is called to start, and the extension panics when it gets
the data and sends a sound when it gets the ping; then everything comes to an end. -/
def talking : List Deed :=
  [.call {}, .proceed, .proceed,
    .take .tester,
    .operate (.send { src := .tester, defaultDest := .extension "echo", executor := .tester }
      (.data { name := "hello" })),
    .operate (.sendCmd (.scripted .tester "ping" [] [] none) { name := "ping" } false),
    .operate (.acknowledge .start), .finish .tester (.ok ()),
    .take .engine, .finish .engine (.ok ()), .take .engine, .finish .engine (.ok ()),
    .take .engine, .finish .engine (.error ⟨"scripted panic"⟩),
    .take .engine,
    .operate (.send { src := .extension "echo", defaultDest := .tester, executor := .engine }
      (.audioFrame { name := "bell" })), .finish .engine (.ok ()),
    .take .tester, .finish .tester (.ok ()),
    .operate .stop, .proceed, .proceed,
    .take .tester, .finish .tester (.ok ()), .take .tester, .operate (.acknowledge .stop),
    .finish .tester (.ok ()), .proceed,
    .take .tester, .operate (.acknowledge .deinit), .finish .tester (.ok ()), .proceed,
    .proceed, .take .tester, .proceed, .take .engine,
    .proceed, .proceed, .proceed, .proceed].map .act

/-- What the extension gets: the data, and the ping as the router has stamped it. -/
def talk : List Message :=
  [.data { name := "hello", dest := some (.extension "echo") },
    .cmd (Cmd.stamped { name := "ping" } ⟨1⟩ .tester (.extension "echo"))]

/-- The extension gets both messages, though it panics at the first one, and the tester gets the
sound. -/
theorem talking_arrives :
    ∃ s s', (ofApp responding).course talking = some s ∧ s.runner = .returned ∧
      (ofApp responding).heard .engine talking = talk ∧
      (ofApp responding).course (talking.take 1) = some s' ∧
      s'.heard .tester (talking.drop 1) =
        [.audioFrame { name := "bell", dest := some .tester }] := by
  have hbuilt : build {} (some "echo") "" .responder = .ok responding := rfl
  have hend : (((ofApp responding).course (talking.take 1)).bind fun s' =>
      (s'.course (talking.drop 1)).map fun s =>
        (s.runner, (ofApp responding).handed .engine talking, s'.app.tester.isSome,
          s'.app.inbox .tester ++ s'.handed .tester (talking.drop 1))) =
      some (.returned, talk, true, [.audioFrame { name := "bell", dest := some .tester }]) := by
    decide +kernel
  obtain ⟨s', hfirst, hend⟩ := Option.bind_eq_some_iff.mp hend
  obtain ⟨s, hrest, hend⟩ := Option.map_eq_some_iff.mp hend
  simp only [Prod.mk.injEq] at hend
  obtain ⟨hreturned, hhanded, htester, hring⟩ := hend
  have hcourse : (ofApp responding).course (talking.take 1 ++ talking.drop 1) = some s :=
    (course_append _ _ _).trans (Option.bind_eq_some_iff.mpr ⟨s', hfirst, hrest⟩)
  rw [List.take_append_drop] at hcourse
  obtain ⟨-, -, ⟨-, hengine⟩, -⟩ := messages_arrive_in_order hbuilt hcourse
  obtain ⟨-, -, -, htesters, -⟩ := messages_arrive_in_order hbuilt hfirst
  exact ⟨s, s', hcourse, hreturned, (hengine hreturned).trans hhanded, hfirst,
    ((htesters _ s hrest htester).2.2 hreturned).trans hring⟩

end Built

end Scene
end Switchboard.App
