import Switchboard.Proofs.Run.Embedding
import Switchboard.Proofs.Run.Stop
/-!
# Messages arrive once and in order

Each side works its queue off from the head, and whatever is handed to it is put behind the tail. So
the callbacks of a side are called once for each message that was handed to it, in the order of the
sends, whoever sent it, and whatever becomes of the callbacks before. When an application has been
torn down nothing is left in the queues, and nothing is handed over any more.
-/
namespace Switchboard.App

/-- The messages that are queued for a side. -/
def inbox (a : App) (side : Side) : List Message := (a.worker side).queue.filterMap arrivalOf

namespace Deed

/-- The task that a side's worker begins with. -/
def taken (s : Scene) (side : Side) : Deed → List (Task Job)
  | .act (.take other) => if other = side then (s.app.worker side).queue.take 1 else []
  | .act (.operate _) | .act (.note _) | .act (.finish ..) | .act (.call _) | .act .proceed
  | .giveUp => []

/-- What is handed to a side. -/
def handed (s : Scene) (side : Side) : Deed → List Message
  | .act (.operate op) => share side (op.handed? s.app (op.perform.run s.app).1)
  | .act (.take _) | .act (.note _) | .act (.finish ..) | .act (.call _) | .act .proceed
  | .giveUp => []

/-- The message that a side is called with. The tester is called only if there is one. -/
def heard (s : Scene) (side : Side) (deed : Deed) : List Message :=
  if side = .engine ∨ s.app.tester.isSome then (deed.taken s side).filterMap arrivalOf else []

end Deed

namespace Scene

/-- The tasks that a side's worker begins with along a course, in order. -/
def taken (s : Scene) (side : Side) (deeds : List Deed) : List (Task Job) :=
  s.gather (fun s deed => deed.taken s side) deeds

/-- The messages that are handed to a side along a course, in order. -/
def handed (s : Scene) (side : Side) (deeds : List Deed) : List Message :=
  s.gather (fun s deed => deed.handed s side) deeds

/-- The messages that a side is called with along a course, in order. -/
def heard (s : Scene) (side : Side) (deeds : List Deed) : List Message :=
  s.gather (fun s deed => deed.heard s side) deeds

section Queues

variable {s s' : Scene} {deed : Deed} {deeds : List Deed}

/-- A worker begins with the head of its queue. -/
theorem queue_take {side : Side} {task : Task Job} {tasks : List (Task Job)}
    (hqueue : (s.app.worker side).queue = task :: tasks) (other : Side) :
    Deed.taken s other (.act (.take side)) ++
      ((start { s with app := s.app.popped side, runner := s.runner.countDown side } side
        task).app.worker other).queue = (s.app.worker other).queue := by
  obtain ⟨hunshaken, -⟩ := unshaken_start
    { s with app := s.app.popped side, runner := s.runner.countDown side } side task
  rw [hunshaken.queue, queue_popped, Deed.taken]
  split
  · next heq =>
    subst heq
    rw [hqueue]
    rfl
  · rfl

/-- An application whose router is closed and knows no endpoints. -/
def cleared (a : App) : App := { a with router := a.router.clearRoutes }

theorem hands_abort (a : App) (reason : String) :
    Hands none (cleared a) ((Program.abort reason).run a).2 :=
  withholds_onTable (·.cancelAll reason) (cleared a)

/-- Whatever happens takes at most the head off a queue, and puts what is handed over behind the
tail, with tasks that bring no messages. -/
theorem undergo_queue (hdeed : s.undergo deed = some s') (side : Side) :
    ∃ more, deed.taken s side ++ (s'.app.worker side).queue = (s.app.worker side).queue ++ more ∧
      more.filterMap arrivalOf = deed.handed s side ∧ ∀ task ∈ more, isLater side task = true := by
  have hstill {queue : List (Task Job)} (hqueue : queue = (s.app.worker side).queue) :
      ∃ more, queue = (s.app.worker side).queue ++ more ∧ more.filterMap arrivalOf = [] ∧
        ∀ task ∈ more, isLater side task = true :=
    ⟨[], by rw [hqueue, List.append_nil], rfl, nofun⟩
  cases deed with
  | giveUp =>
    rcases giveUp_eq_some hdeed with ⟨-, rfl⟩ | ⟨_, -, rfl⟩
    · exact hstill rfl
    · exact (hands_abort s.app "run timed out").queue side
  | act act =>
    cases act with
    | operate op =>
      cases hdeed
      exact (op.hands s.app).queue side
    | note notes =>
      cases hdeed
      exact hstill rfl
    | take other =>
      obtain ⟨-, task, tasks, hqueue, rfl⟩ := take_eq_some hdeed
      exact hstill (queue_take hqueue side)
    | finish other ended =>
      exact hstill ((unshaken_finish hdeed).1.queue side)
    | call tester =>
      obtain ⟨-, rfl⟩ := call_eq_some hdeed
      exact hstill rfl
    | proceed =>
      rcases proceed_cases hdeed with ⟨α, p, next, hp, rfl, -, -⟩ | ⟨-, rfl⟩ |
        ⟨other, -, rfl⟩ | ⟨-, rfl⟩
      · exact (hp.withholds s.app).queue side
      · exact (hands_abort s.app "tester dropped").queue side
      · refine hstill ?_
        change ((s.app.setWorker other (s.app.worker other).shutDown).worker side).queue = _
        rw [worker_setWorker]
        split
        · next heq => exact congrArg (fun side => (s.app.worker side).queue) heq
        · rfl
      · exact hstill rfl

/-- What a worker has taken with and what is queued for it is what was queued before and what was
handed over since, with tasks that bring no messages. -/
theorem course_queue (hcourse : s.course deeds = some s') (side : Side) :
    ∃ more, s.taken side deeds ++ (s'.app.worker side).queue = (s.app.worker side).queue ++ more ∧
      more.filterMap arrivalOf = s.handed side deeds ∧ ∀ task ∈ more, isLater side task = true := by
  induction deeds generalizing s with
  | nil =>
    cases hcourse
    exact ⟨[], (List.append_nil _).symm, rfl, nofun⟩
  | cons deed deeds ih =>
    obtain ⟨next, hdeed, hrest⟩ := Option.bind_eq_some_iff.mp hcourse
    obtain ⟨more, hqueue, hhanded, hlater⟩ := undergo_queue hdeed side
    obtain ⟨more', hqueue', hhanded', hlater'⟩ := ih hrest
    refine ⟨more ++ more', ?_, ?_, fun task htask => ?_⟩
    · rw [taken, gather_cons hdeed, List.append_assoc]
      rw [taken] at hqueue'
      rw [hqueue', ← List.append_assoc, hqueue, List.append_assoc]
    · rw [List.filterMap_append, hhanded, hhanded', handed, handed, gather_cons hdeed]
    · exact (List.mem_append.mp htask).elim (hlater task) (hlater' task)

end Queues

/-- What holds of the endpoints and queues of an application along a course: the endpoints are those
of the sides, until there are none; and whoever tears the application down leaves nothing queued. -/
structure Housed (extension : String) (s : Scene) : Prop where
  name : s.app.name = extension
  routes : s.app.router.routes = [] ∨
    s.app.router.routes = [(.extension extension, .engine), (.tester, .tester)]
  testerShut : s.runner.closing = true → (s.app.worker .tester).accepting = false
  testerDone : s.runner.closed = true → (s.app.worker .tester).queue = []
  engineShut : s.runner.closed = true → (s.app.worker .engine).accepting = false
  engineDone : s.runner = .returned → (s.app.worker .engine).queue = []

section Housed

variable {extension : String} {s s' : Scene} {deed : Deed} {deeds : List Deed}

/-- Nobody takes tasks again who was shut down, nothing gets into a queue that was worked off, and the
runner is no nearer to his end. -/
theorem Housed.keep (h : s.Housed extension) (hname : s'.app.name = s.app.name)
    (hroutes : s'.app.router.routes = s.app.router.routes ∨ s'.app.router.routes = [])
    (hshut : ∀ side, (s.app.worker side).accepting = false →
      (s'.app.worker side).accepting = false ∧
        ((s.app.worker side).queue = [] → (s'.app.worker side).queue = []))
    (hclosing : s'.runner.closing = true → s.runner.closing = true)
    (hclosed : s'.runner.closed = true → s.runner.closed = true)
    (hreturned : s'.runner = .returned → s.runner = .returned) : s'.Housed extension where
  name := hname.trans h.name
  routes := by
    rcases hroutes with heq | hnone
    · rw [heq]
      exact h.routes
    · exact Or.inl hnone
  testerShut hcloses := (hshut .tester (h.testerShut (hclosing hcloses))).1
  testerDone hcloses :=
    (hshut .tester (h.testerShut (Runner.closing_of_closed (hclosed hcloses)))).2
      (h.testerDone (hclosed hcloses))
  engineShut hcloses := (hshut .engine (h.engineShut (hclosed hcloses))).1
  engineDone hdone :=
    (hshut .engine (h.engineShut (hreturned hdone ▸ rfl))).2 (h.engineDone (hreturned hdone))

/-- Something is handed over, or nothing. -/
theorem Housed.hands (h : s.Housed extension) {handed : Option (Side × Message)}
    (hands : Hands handed s.app s'.app)
    (hclosing : s'.runner.closing = true → s.runner.closing = true)
    (hclosed : s'.runner.closed = true → s.runner.closed = true)
    (hreturned : s'.runner = .returned → s.runner = .returned) : s'.Housed extension :=
  h.keep hands.name (Or.inl hands.routes)
    (fun side hshut => ⟨(hands.accepting side).trans hshut, (hands.shut side hshut).trans⟩)
    hclosing hclosed hreturned

/-- The application is given up, or begins to be dropped. -/
theorem Housed.abort (h : s.Housed extension) (reason : String)
    (happ : s'.app = ((Program.abort reason).run s.app).2) (hclosing : s'.runner.closing = false) :
    s'.Housed extension := by
  have hands := hands_abort s.app reason
  rw [← happ] at hands
  have hnot {p : Prop} (h : s'.runner.closing = true) : p := by
    rw [hclosing] at h
    cases h
  refine ⟨hands.name.trans h.name, Or.inl hands.routes, hnot, ?_, ?_, ?_⟩
  · exact fun hclosed => hnot (Runner.closing_of_closed hclosed)
  · exact fun hclosed => hnot (Runner.closing_of_closed hclosed)
  · exact fun hreturned => hnot (hreturned ▸ rfl)

/-- A worker begins with a task. -/
theorem Housed.take (h : s.Housed extension) (side : Side) (task : Task Job) :
    (start { s with app := s.app.popped side, runner := s.runner.countDown side } side
      task).Housed extension := by
  obtain ⟨hunshaken, hrunner⟩ := unshaken_start
    { s with app := s.app.popped side, runner := s.runner.countDown side } side task
  have halike := Runner.alike_countDown s.runner side
  refine h.keep (hunshaken.name.trans (name_setWorker s.app side _)) (Or.inl ?_) ?_ ?_ ?_ ?_
  · exact congrArg Router.routes (hunshaken.router.trans (router_setWorker s.app side _))
  · intro other hshut
    rw [hunshaken.accepting, accepting_popped, hunshaken.queue, queue_popped]
    refine ⟨hshut, fun hempty => ?_⟩
    split
    · next heq =>
      rw [heq, hempty]
      rfl
    · exact hempty
  · rw [hrunner, halike.closing]
    exact id
  · rw [hrunner, halike.closed]
    exact id
  · rw [hrunner]
    exact Runner.eq_returned_of_countDown

/-- The runner goes on. -/
theorem Housed.proceed (h : s.Housed extension) (hproceed : s.proceed = some s') :
    s'.Housed extension := by
  cases hdrop : s.runner.dropping with
  | false =>
    rcases proceed_cases hproceed with ⟨α, p, next, hp, rfl, -, hnext⟩ | ⟨-, rfl⟩ |
      ⟨side, hdrops, -⟩ | ⟨hrunner, -⟩
    · have hnot {q : Prop} (hcloses : (next (p.run s.app).1).closing = true) : q := by
        rw [Runner.dropping_of_closing hcloses] at hnext
        cases hnext
      refine h.hands (hp.withholds s.app) hnot
        (fun hclosed => hnot (Runner.closing_of_closed hclosed)) fun hreturned => hnot ?_
      exact (congrArg Runner.closing hreturned).trans rfl
    · exact h.abort "tester dropped" rfl rfl
    · rw [hdrop] at hdrops
      cases hdrops
    · rw [hrunner] at hdrop
      cases hdrop
  | true =>
    rcases proceed_of_dropping hdrop hproceed with ⟨-, rfl⟩ | ⟨hrunner, hdone, rfl⟩ |
      ⟨hrunner, hdone, rfl⟩
    · exact ⟨h.name, h.routes, fun _ => rfl, nofun, nofun, nofun⟩
    · exact ⟨h.name, h.routes, fun _ => h.testerShut (hrunner ▸ rfl), fun _ => hdone, fun _ => rfl,
        nofun⟩
    · exact ⟨h.name, h.routes, fun _ => h.testerShut (hrunner ▸ rfl),
        fun _ => h.testerDone (hrunner ▸ rfl), fun _ => h.engineShut (hrunner ▸ rfl), fun _ => hdone⟩

/-- Whatever happens. -/
theorem Housed.undergo (h : s.Housed extension) (hdeed : s.undergo deed = some s') :
    s'.Housed extension := by
  cases deed with
  | giveUp =>
    rcases giveUp_eq_some hdeed with ⟨-, rfl⟩ | ⟨_, -, rfl⟩
    · exact h.keep rfl (Or.inl rfl) (fun _ hshut => ⟨hshut, id⟩) (fun hnot => by cases hnot)
        (fun hnot => by cases hnot) (fun hnot => by cases hnot)
    · exact h.abort "run timed out" rfl rfl
  | act act =>
    cases act with
    | operate op =>
      cases hdeed
      exact h.hands (op.hands s.app) id id id
    | note notes =>
      cases hdeed
      exact h.hands (hands_of_same rfl rfl rfl rfl fun _ => rfl) id id id
    | take side =>
      obtain ⟨-, task, tasks, -, rfl⟩ := take_eq_some hdeed
      exact h.take side task
    | finish side ended =>
      obtain ⟨business, -, rfl⟩ := Option.map_eq_some_iff.mp hdeed
      have hunshaken := unshaken_ended s.app business side ended
      refine h.keep hunshaken.name (Or.inl (congrArg Router.routes hunshaken.router)) ?_ id id id
      exact fun other hshut =>
        ⟨(hunshaken.accepting other).trans hshut, (hunshaken.queue other).trans⟩
    | call tester =>
      obtain ⟨hidle, rfl⟩ := call_eq_some hdeed
      exact h.keep rfl (Or.inl rfl) (fun _ hshut => ⟨hshut, id⟩) (fun hnot => by cases hnot)
        (fun hnot => by cases hnot) (fun hnot => by cases hnot)
    | proceed => exact h.proceed hdeed

theorem Housed.course (h : s.Housed extension) (hcourse : s.course deeds = some s') :
    s'.Housed extension := by
  induction deeds generalizing s with
  | nil =>
    cases hcourse
    exact h
  | cons deed deeds ih =>
    obtain ⟨next, hdeed, hrest⟩ := Option.bind_eq_some_iff.mp hcourse
    exact ih (h.undergo hdeed) hrest

/-- When the application has been torn down nothing is queued. -/
theorem Housed.queue_of_returned (h : s.Housed extension) (hreturned : s.runner = .returned)
    (side : Side) : (s.app.worker side).queue = [] := by
  cases side with
  | tester => exact h.testerDone (hreturned ▸ rfl)
  | engine => exact h.engineDone hreturned

/-- A message is handed to the side that lives where it is sent. -/
theorem Housed.eq_of_handing (h : s.Housed extension) {dest : Loc} {msg sent : Message} {side : Side}
    (hhanded : s.app.handing? dest msg = some (side, sent)) :
    sent = msg ∧ dest = (s.app.outlet side).src := by
  obtain ⟨receiver, hreceiver, heq⟩ := Option.map_eq_some_iff.mp hhanded
  obtain ⟨rfl, rfl⟩ := Prod.mk.inj heq
  obtain ⟨hresolved, -⟩ := receiver?_eq_some_iff.mp hreceiver
  refine ⟨rfl, ?_⟩
  rw [Router.resolve, Router.endpoint?] at hresolved
  have hloc : s.app.extensionLoc = .extension extension := congrArg Loc.extension h.name
  rcases h.routes with hnone | hroutes
  · rw [hnone] at hresolved
    cases hresolved
  · rw [hroutes] at hresolved
    by_cases hengine : dest = .extension extension
    · subst hengine
      rw [List.lookup_cons_self] at hresolved
      cases hresolved
      exact hloc.symm
    · by_cases htester : dest = .tester
      · subst htester
        cases hresolved
        rfl
      · have hengine' : (dest == .extension extension) = false := beq_eq_false_iff_ne.mpr hengine
        have htester' : (dest == .tester) = false := beq_eq_false_iff_ne.mpr htester
        simp [List.lookup_cons, hengine', htester'] at hresolved

end Housed

section Heard

variable {extension : String} {s s' : Scene} {deed : Deed} {deeds : List Deed}

/-- The extension is called with every message that its worker comes to. -/
theorem heard_engine (s : Scene) (deeds : List Deed) :
    s.heard .engine deeds = (s.taken .engine deeds).filterMap arrivalOf := by
  induction deeds generalizing s with
  | nil => rfl
  | cons deed deeds ih =>
    rw [heard, taken, gather, gather, List.filterMap_append, Deed.heard, if_pos (Or.inl rfl)]
    cases s.undergo deed with
    | none => rfl
    | some next => exact congrArg _ (ih next)

/-- A tester that was installed stays until the application has been torn down. -/
theorem attended_undergo (h : s.app.tester.isSome = true ∨ s.runner = .returned)
    (hdeed : s.undergo deed = some s') :
    s'.app.tester.isSome = true ∨ s'.runner = .returned := by
  have hkeep (htester : s'.app.tester = s.app.tester)
      (hrunner : s.runner = .returned → s'.runner = .returned) :
      s'.app.tester.isSome = true ∨ s'.runner = .returned :=
    h.imp (fun hsome => htester ▸ hsome) hrunner
  cases deed with
  | giveUp =>
    rcases giveUp_eq_some hdeed with ⟨hidle, rfl⟩ | ⟨_, hlistens, rfl⟩
    · exact hkeep rfl fun hreturned => by rw [hidle] at hreturned; cases hreturned
    · refine hkeep (hands_abort s.app "run timed out").tester fun hreturned => ?_
      rw [hlistens] at hreturned
      cases hreturned
  | act act =>
    cases act with
    | operate op =>
      cases hdeed
      exact hkeep (op.hands s.app).tester id
    | note notes =>
      cases hdeed
      exact hkeep rfl id
    | take side =>
      obtain ⟨hunshaken, hrunner⟩ := unshaken_take hdeed
      refine hkeep (hunshaken.tester.trans (tester_setWorker s.app side _)) fun hreturned => ?_
      rw [hrunner, hreturned]
      rfl
    | finish side ended =>
      obtain ⟨hunshaken, hrunner⟩ := unshaken_finish hdeed
      exact hkeep hunshaken.tester hrunner.trans
    | call tester =>
      obtain ⟨-, rfl⟩ := call_eq_some hdeed
      exact Or.inl rfl
    | proceed =>
      have hgoes : s.runner ≠ .returned := by
        intro hreturned
        change s.proceed = some s' at hdeed
        rw [Scene.proceed, hreturned] at hdeed
        cases hdeed
      rcases proceed_cases hdeed with ⟨α, p, next, hp, rfl, -, -⟩ | ⟨-, rfl⟩ |
        ⟨side, -, rfl⟩ | ⟨-, rfl⟩
      · exact hkeep (hp.withholds s.app).tester fun hreturned => absurd hreturned hgoes
      · exact hkeep (hands_abort s.app "tester dropped").tester
          fun hreturned => absurd hreturned hgoes
      · exact hkeep (tester_setWorker s.app side _) fun hreturned => absurd hreturned hgoes
      · exact Or.inr rfl

/-- A tester that was installed is called with every message that its worker comes to. -/
theorem Housed.heard_tester (h : s.Housed extension)
    (hattended : s.app.tester.isSome = true ∨ s.runner = .returned)
    (hcourse : s.course deeds = some s') :
    s.heard .tester deeds = (s.taken .tester deeds).filterMap arrivalOf := by
  induction deeds generalizing s with
  | nil => rfl
  | cons deed deeds ih =>
    obtain ⟨next, hdeed, hrest⟩ := Option.bind_eq_some_iff.mp hcourse
    have hlater := ih (h.undergo hdeed) (attended_undergo hattended hdeed) hrest
    have hnow : deed.heard s .tester = (deed.taken s .tester).filterMap arrivalOf := by
      rw [Deed.heard]
      split
      · rfl
      · next hnobody =>
        -- nobody listens, but there is nothing to be heard either
        have hreturned : s.runner = .returned :=
          hattended.resolve_left fun hsome => hnobody (Or.inr hsome)
        have hqueue := h.queue_of_returned hreturned .tester
        cases deed with
        | giveUp => rfl
        | act act =>
          cases act with
          | take side =>
            rw [Deed.taken, hqueue]
            split
            · rfl
            · rfl
          | operate | note | finish | call | proceed => rfl
    rw [heard] at hlater
    rw [taken] at hlater
    rw [heard, taken, gather_cons hdeed, gather_cons hdeed, List.filterMap_append, hnow, hlater]

/-- What is handed to a side and what it is called with. -/
theorem arrivals_eq (hcourse : s.course deeds = some s') {side : Side}
    (hheard : s.heard side deeds = (s.taken side deeds).filterMap arrivalOf) :
    s.heard side deeds ++ s'.app.inbox side = s.app.inbox side ++ s.handed side deeds := by
  obtain ⟨more, hqueue, hhanded, -⟩ := course_queue hcourse side
  rw [hheard, inbox, inbox, ← List.filterMap_append, hqueue, List.filterMap_append, hhanded]

end Heard

end Scene

/-- What is handed over is what was sent: with the destination of the side that gets it, and a
command with the id that it was sent under and its sender. A message is handed over just if its send
succeeds. -/
structure HandsFaithfully (a : App) : Prop where
  send : ∀ (p : Outlet Side) (msg : Message) (side : Side) (sent : Message),
    (Operation.send p msg).handed? a ((Operation.send p msg).perform.run a).1 = some (side, sent) →
    sent = msg.withDest (a.outlet side).src
  succeeds : ∀ (p : Outlet Side) (msg : Message),
    ((Operation.send p msg).perform.run a).1 = .ok () ↔
      ((Operation.send p msg).handed? a ((Operation.send p msg).perform.run a).1).isSome = true
  sendCmd : ∀ (handler : Handler) (cmd : Cmd) (streaming : Bool) (side : Side) (sent : Message),
    let op := Operation.sendCmd handler cmd streaming
    op.handed? a (op.perform.run a).1 = some (side, sent) →
    ∃ id, (op.perform.run a).1 = .ok id ∧
      sent = .cmd (cmd.stamped id (a.outlet handler.side).src (a.outlet side).src)

namespace Scene

theorem Housed.handsFaithfully {extension : String} {s : Scene} (h : s.Housed extension) :
    s.app.HandsFaithfully where
  send p msg side sent hhanded := by
    cases hanswer : ((Operation.send p msg).perform.run s.app).1 with
    | error e =>
      rw [hanswer] at hhanded
      cases hhanded
    | ok _ =>
      rw [hanswer] at hhanded
      obtain ⟨rfl, hdest⟩ := h.eq_of_handing hhanded
      rw [hdest]
  succeeds p msg := (hands_send s.app p msg).2
  sendCmd handler cmd streaming side sent := by
    intro op hhanded
    cases hanswer : (op.perform.run s.app).1 with
    | error e =>
      rw [hanswer] at hhanded
      cases hhanded
    | ok id =>
      rw [hanswer] at hhanded
      obtain ⟨rfl, hdest⟩ := h.eq_of_handing hhanded
      exact ⟨id, rfl, by rw [hdest]⟩

section Courses

variable {config : Config} {name : Option String} {properties : String} {extension : Extension}
  {built : App}

/-- A new application has both endpoints, and nothing is queued but the initialisation of its
extension. -/
theorem housed_ofApp (hbuilt : build config name properties extension = .ok built) :
    (ofApp built).Housed built.name ∧ (built.worker .tester).queue = [] ∧
      ∃ properties, (built.worker .engine).queue = [.job (.initExtension properties)] := by
  obtain ⟨name, properties, rfl⟩ := eq_ofParts_of_build hbuilt
  exact ⟨⟨rfl, Or.inr rfl, nofun, nofun, nofun, nofun⟩, rfl, properties, rfl⟩

end Courses

end Scene

end Switchboard.App
