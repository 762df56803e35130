import Switchboard.Proofs.Run.Parley
/-!
# What the extension is called for

In a parley the extension is called for what was queued for it, in order: first to be initialised,
then at most once to be started, and for each message that it was told. All that it plans on these
cues is to answer the commands and to send plain messages.
-/
namespace Switchboard

/-- A message that the extension may send: it has a name and no addresses. -/
structure Message.Plain (msg : Message) : Prop where
  bare : msg.bare = msg
  name : msg.name ≠ ""
  kind : msg.kind ≠ .cmdResult

theorem Message.bare_withDest (msg : Message) (dest : Loc) : (msg.withDest dest).bare = msg.bare := by
  cases msg <;> rfl

theorem Message.Plain.dest {msg : Message} (h : msg.Plain) : msg.dest = none := by
  rw [← h.bare]
  cases msg <;> rfl

theorem Kind.plain_of_pong {kind : Kind} {msg : Message} (h : kind.pong? = some msg) : msg.Plain := by
  cases kind with
  | cmdResult => cases h
  | cmd | data | audioFrame | videoFrame =>
    cases h
    exact ⟨rfl, by decide, by decide⟩

namespace App

/-- Whether the extension is yet to be started. -/
def Runner.beginning : Runner → Bool
  | idle | installed | starting => true
  | listening _ | finished | draining .. | aborted | shutting _ | returned => false

namespace Cue

/-- What the extension sends is plain. -/
theorem plain_of_replies {greeting : Option String} {cue : Cue} {msg : Message}
    (h : msg ∈ cue.replies greeting) : msg.Plain := by
  cases cue with
  | init properties => cases h
  | start =>
    obtain ⟨text, -, rfl⟩ := Option.map_eq_some_iff.mp (Option.mem_toList.mp h)
    exact ⟨rfl, fun hname : "greeting" = "" => absurd hname (by decide), nofun⟩
  | message msg' =>
    rw [replies] at h
    split at h
    · exact Kind.plain_of_pong (Option.mem_toList.mp h)
    · cases h

/-- What the extension plans is to answer the command that it is told, and to say what it replies. -/
theorem plan_cases {a : App} {cue : Cue} {op : Operation} (h : op ∈ cue.plan a) :
    (∃ cmd, cue = .message (.cmd cmd) ∧
      op = .returnResult (.answering (Responder.verdictOn cmd) cmd)) ∨
      ∃ msg : Message, msg.Plain ∧ op = a.saying msg := by
  rcases List.mem_append.mp h with h | h
  · obtain ⟨result, hresult, rfl⟩ := List.mem_map.mp h
    refine Or.inl ?_
    cases cue with
    | init | start => cases hresult
    | message msg =>
      cases msg with
      | cmd cmd => exact ⟨cmd, rfl, congrArg _ (List.mem_singleton.mp hresult)⟩
      | cmdResult | data | audioFrame | videoFrame => cases hresult
  · obtain ⟨msg, hmsg, rfl⟩ := List.mem_map.mp h
    exact Or.inr ⟨msg, plain_of_replies hmsg, rfl⟩

end Cue

section Cues

variable {owners : List Side} {s s' : Scene} {deed : Deed}

/-- At most one cue is taken at once. -/
theorem Deed.cues_cases (s : Scene) (deed : Deed) :
    deed.cues s = [] ∨ ∃ cue, deed.cues s = [cue] := by
  have hlength : (deed.cues s).length ≤ 1 := by
    refine (List.length_filterMap_le _ _).trans ?_
    cases deed with
    | giveUp => exact Nat.zero_le 1
    | act act =>
      cases act with
      | take side =>
        rw [Deed.taken]
        split
        · exact List.length_take_le 1 _
        · exact Nat.zero_le 1
      | operate | note | finish | call | proceed => exact Nat.zero_le 1
  cases hcues : deed.cues s with
  | nil => exact Or.inl rfl
  | cons cue cues =>
    rw [hcues] at hlength
    obtain rfl := List.length_eq_zero_iff.mp (Nat.le_zero.mp (Nat.le_of_succ_le_succ hlength))
    exact Or.inr ⟨cue, rfl⟩

/-- A cue changes nothing but the greeting. -/
theorem foldl_cued (a : App) (cues : List Cue) :
    cues.foldl cued a =
      { a with greeting := cues.foldl (fun greeting cue => cue.greeting greeting) a.greeting } := by
  induction cues generalizing a with
  | nil => rfl
  | cons cue cues ih => exact ih (a.cued cue)

/-- The message of a cue is that of its task. -/
theorem filterMap_message (tasks : List (Task Job)) :
    (tasks.filterMap Cue.ofTask?).filterMap Cue.message? = tasks.filterMap arrivalOf := by
  rw [List.filterMap_filterMap]
  congr 1
  funext task
  cases task with
  | mark => rfl
  | job job => cases job <;> rfl

theorem isInit_of_init {task : Task Job} {properties : Json}
    (h : Cue.ofTask? task = some (.init properties)) : isInit task = true := by
  cases task with
  | mark => cases h
  | job job =>
    cases job with
    | initExtension => rfl
    | resume | arrival | startExtension | phase | completion => cases h

theorem Runner.beginning_countDown (r : Runner) (side : Side) :
    (r.countDown side).beginning = r.beginning := by
  rcases r.countDown_cases side with hsame | ⟨left, rfl, hless⟩
  · rw [hsame]
  · rw [hless]
    rfl

/-- Whoever has started the extension does not come to start it again. -/
theorem Scene.beginning_undergo (hdeed : s.undergo deed = some s')
    (hbeginning : s'.runner.beginning = true) : s.runner.beginning = true := by
  cases deed with
  | giveUp =>
    rcases giveUp_eq_some hdeed with ⟨hidle, -⟩ | ⟨_, -, rfl⟩
    · rw [hidle]
      rfl
    · cases hbeginning
  | act act =>
    cases act with
    | operate op =>
      cases hdeed
      exact hbeginning
    | note notes =>
      cases hdeed
      exact hbeginning
    | take side =>
      rw [(unshaken_take hdeed).2, Runner.beginning_countDown] at hbeginning
      exact hbeginning
    | finish side ended =>
      obtain ⟨business, -, rfl⟩ := Option.map_eq_some_iff.mp hdeed
      exact hbeginning
    | call tester =>
      obtain ⟨hidle, -⟩ := call_eq_some hdeed
      rw [hidle]
      rfl
    | proceed =>
      cases goesOn_of_proceed hdeed with
      | start hrunner | launch hrunner =>
        rw [hrunner]
        rfl
      | answer seen =>
        change (if _ then Runner.finished else .listening (seen + 1)).beginning = true at hbeginning
        split at hbeginning
        · cases hbeginning
        · cases hbeginning
      | flushTester | flushEngine | abort | shutTester | shutEngine | leave => cases hbeginning

/-- The runner starts the extension just once. -/
theorem Deed.beginning_of_launches (h : deed.launches s = true) (hdeed : s.undergo deed = some s') :
    deed = .act .proceed ∧ s.runner.beginning = true ∧
      s' = s.become ((Program.worker .engine).step (·.execute .startExtension)) fun _ =>
        .listening 0 := by
  cases deed with
  | giveUp => cases h
  | act act =>
    cases act with
    | proceed =>
      have hrunner : s.runner = .starting := of_decide_eq_true h
      change s.proceed = some s' at hdeed
      rw [Scene.proceed, hrunner] at hdeed
      cases hdeed
      rw [hrunner]
      exact ⟨rfl, rfl, rfl⟩
    | operate | note | take | finish | call => cases h

theorem Deed.router_relieved (s : Scene) (deed : Deed) : (deed.relieved s).router = s.app.router := by
  cases deed with
  | giveUp => rfl
  | act act =>
    cases act with
    | take side => exact router_setWorker s.app side _
    | operate | note | finish | call | proceed => rfl

/-- What a worker has left when it has begun with a task. -/
theorem Deed.queue_relieved (hdeed : s.undergo deed = some s') (side : Side) :
    deed.taken s side ++ ((deed.relieved s).worker side).queue = (s.app.worker side).queue := by
  cases deed with
  | giveUp => rfl
  | act act =>
    cases act with
    | take other =>
      obtain ⟨-, task, tasks, hqueue, -⟩ := Scene.take_eq_some hdeed
      rw [Deed.taken, Deed.relieved, queue_popped]
      split
      · next heq =>
        subst heq
        rw [hqueue]
        rfl
      · rfl
    | operate | note | finish | call | proceed => rfl

/-- What is queued for the extension is what it is handed, and at most once its start, if somebody
launches it. -/
theorem Scene.Lasting.cues_undergo (h : s.Lasting owners) (hdeed : s.undergo deed = some s')
    (hopen : s'.app.router.closed = false) :
    ∃ more : List Cue,
      deed.cues s ++ (s'.app.worker .engine).queue.filterMap Cue.ofTask? =
        (s.app.worker .engine).queue.filterMap Cue.ofTask? ++ more ∧
      more.filterMap Cue.message? = deed.handed s .engine ∧
      (∀ properties, .init properties ∉ more) ∧
      more.countP Cue.isStart + s'.runner.beginning.toNat ≤ s.runner.beginning.toNat := by
  obtain ⟨more, hqueue, hhanded, hlater⟩ := undergo_queue hdeed .engine
  refine ⟨more.filterMap Cue.ofTask?, ?_, ?_, fun properties hmem => ?_, ?_⟩
  · rw [Deed.cues, ← List.filterMap_append, hqueue, List.filterMap_append]
  · rw [filterMap_message, hhanded]
  · obtain ⟨task, htask, hcue⟩ := List.mem_filterMap.mp hmem
    have hnot := isInit_of_isLater (hlater task htask)
    rw [isInit_of_init hcue] at hnot
    cases hnot
  · cases hlaunches : deed.launches s with
    | true =>
      obtain ⟨rfl, hbefore, rfl⟩ := Deed.beginning_of_launches hlaunches hdeed
      have hlength : more.length ≤ 1 := by
        change ((s.app.worker .engine).accept (.job .startExtension)).2.queue = _ at hqueue
        rw [Worker.accept] at hqueue
        split at hqueue
        · rw [← List.append_cancel_left hqueue]
          rfl
        · rw [← List.append_cancel_left ((List.append_nil _).trans hqueue)]
          exact Nat.zero_le 1
      rw [hbefore]
      exact (List.countP_le_length.trans (List.length_filterMap_le _ _)).trans hlength
    | false =>
      have hdeals := h.deals hdeed hopen
      rw [hlaunches] at hdeals
      obtain ⟨more', hqueue', hmore'⟩ := hdeals.tasks .engine
      rw [hqueue', ← List.append_assoc, Deed.queue_relieved hdeed] at hqueue
      obtain rfl := List.append_cancel_left hqueue
      have hnone : (more'.filterMap Cue.ofTask?).countP Cue.isStart = 0 := by
        rw [List.countP_eq_zero]
        intro cue hcue
        obtain ⟨task, htask, htaken⟩ := List.mem_filterMap.mp hcue
        cases hmore' task htask with
        | fault => cases htaken
        | result => cases htaken
        | plain hplain =>
          cases task with
          | mark => cases htaken
          | job job =>
            cases job with
            | startExtension => cases hplain
            | arrival msg =>
              cases htaken
              exact Bool.false_ne_true
            | resume | initExtension => cases hplain
            | phase | completion => cases htaken
      rw [hnone, Nat.zero_add]
      exact Bool.toNat_le_toNat (beginning_undergo hdeed)

end Cues

/-- The endpoints of an application in which both sides can be reached. -/
def bothRoutes (extension : String) : List (Loc × Side) :=
  [(.extension extension, .engine), (.tester, .tester)]

namespace Parley

/-- All that the extension is called for, and what it is yet to be called for. -/
def line (p : Parley) : List Cue :=
  p.cues ++ (p.scene.app.worker .engine).queue.filterMap Cue.ofTask?

/-- The extension is called for its initialisation, just once and first of all, and then for what else
it is told. -/
def Lined (properties : Json) (p : Parley) : Prop :=
  ∃ more, p.line = .init properties :: more ∧ (∀ properties, .init properties ∉ more) ∧
    more.filterMap Cue.message? = p.told.map (·.2)

/-- The extension has planned to answer a command that it was told, or to say something. -/
inductive Plans (p : Parley) : Operation → Prop where
  | answer {k : Nat} {cmd : Cmd} (h : (k, .cmd cmd) ∈ p.told) :
    Plans p (.returnResult (.answering (Responder.verdictOn cmd) cmd))
  | say {msg : Message} (h : msg.Plain) : Plans p (p.scene.app.saying msg)

/-- What holds along every parley with an extension of a name and with properties. -/
structure Standing (extension : String) (properties : Json) (p : Parley) : Prop where
  lasting : ∃ owners, p.scene.Lasting owners
  housed : p.scene.Housed extension
  opened : p.scene.app.router.closed = false
  table : p.scene.app.router.table.closed = false
  routes : p.scene.app.router.routes = bothRoutes extension
  nextId : p.scene.app.router.table.nextId.toNat ≤ p.scene.app.cells.size + 1
  lined : p.Lined properties
  starts : p.line.countP Cue.isStart + p.scene.runner.beginning.toNat ≤ 1
  greeting : p.cues ≠ [] → p.scene.app.greeting = Responder.greetingOf properties
  planned : ∀ op ∈ p.plan, p.Plans op

section Standing

variable {extension : String} {properties : Json} {p p' : Parley}

/-- A message that the extension is called for, now or later, is one that it was told. -/
theorem Lined.mem_told (h : p.Lined properties) {msg : Message} (hmem : .message msg ∈ p.line) :
    ∃ k, (k, msg) ∈ p.told := by
  obtain ⟨more, hline, -, htold⟩ := h
  rw [hline] at hmem
  have hmore : Cue.message msg ∈ more := (List.mem_cons.mp hmem).resolve_left nofun
  have hmsg : msg ∈ p.told.map (·.2) := htold ▸ List.mem_filterMap.mpr ⟨_, hmore, rfl⟩
  obtain ⟨⟨k, msg⟩, hpair, rfl⟩ := List.mem_map.mp hmsg
  exact ⟨k, hpair⟩

theorem saying_congr {a b : App} (h : a.name = b.name) (msg : Message) :
    a.saying msg = b.saying msg := by
  have houtlet : a.outlet .engine = b.outlet .engine := by
    rw [outlet, outlet, extensionLoc, extensionLoc, h]
  cases msg with
  | cmd cmd => rfl
  | cmdResult | data | audioFrame | videoFrame => rw [saying, saying, houtlet]

/-- What has become of the scene, but for the greeting. -/
theorem scene_after (p : Parley) (deed : Deed) (plan : List Operation) (said : List Message)
    (s : Scene) : (p.after deed plan said s).scene =
      { s with app := { s.app with
          greeting := (deed.cues p.scene).foldl (fun greeting cue => cue.greeting greeting)
            s.app.greeting } } := by
  rw [after, foldl_cued]

/-- The line gets longer by what was queued. -/
theorem line_after {s : Scene} {deed : Deed} {more : List Cue}
    (hqueue : deed.cues p.scene ++ (s.app.worker .engine).queue.filterMap Cue.ofTask? =
      (p.scene.app.worker .engine).queue.filterMap Cue.ofTask? ++ more) (plan : List Operation)
    (said : List Message) : (p.after deed plan said s).line = p.line ++ more := by
  have hsame : ((p.after deed plan said s).scene.app.worker .engine).queue =
      (s.app.worker .engine).queue := by
    rw [scene_after]
    rfl
  rw [line, hsame, line, List.append_assoc, ← hqueue, ← List.append_assoc]
  rfl

theorem Lined.after (h : p.Lined properties) {s : Scene} {deed : Deed} {plan : List Operation}
    {said : List Message} {more : List Cue} (hline : (p.after deed plan said s).line = p.line ++ more)
    (htold : more.filterMap Cue.message? = deed.handed p.scene .engine)
    (hinit : ∀ properties, .init properties ∉ more) : (p.after deed plan said s).Lined properties := by
  obtain ⟨before, hbefore, hinit', htold'⟩ := h
  refine ⟨before ++ more, by rw [hline, hbefore]; rfl, fun properties hmem => ?_, ?_⟩
  · exact (List.mem_append.mp hmem).elim (hinit' properties) (hinit properties)
  · rw [List.filterMap_append, htold', htold]
    change _ = (p.told ++ _).map _
    rw [List.map_append, List.map_map]
    exact congrArg _ (List.map_id _).symm

/-- No continuations are lost. -/
theorem Standing.size_step (h : p.Standing extension properties) {part : Part}
    (hstep : p.step part = some p') : p.scene.app.cells.size ≤ p'.scene.app.cells.size := by
  obtain ⟨deed, plan, said, s, -, hdeed, -, -, rfl⟩ := step_eq_some hstep
  obtain ⟨owners, hlasting⟩ := h.lasting
  obtain ⟨owners', hgrows, hlasting'⟩ := hlasting.undergo hdeed
  rw [scene_after]
  change _ ≤ s.app.cells.size
  rw [← hlasting.accounted.placed.size, ← hlasting'.accounted.placed.size]
  exact hgrows.length_le

/-- The extension remembers the greeting from when it was initialised. -/
theorem Standing.greeting_after (h : p.Standing extension properties) {s : Scene} {deed : Deed}
    {plan : List Operation} {said : List Message}
    (hlined : (p.after deed plan said s).Lined properties)
    (hgreeting : s.app.greeting = p.scene.app.greeting)
    (hcues : (p.after deed plan said s).cues ≠ []) :
    (p.after deed plan said s).scene.app.greeting = Responder.greetingOf properties := by
  obtain ⟨more, hline, hinit, -⟩ := hlined
  have hall : (p.after deed plan said s).cues = p.cues ++ deed.cues p.scene := rfl
  rw [scene_after]
  rcases deed.cues_cases p.scene with hnone | ⟨cue, hone⟩
  · rw [hall, hnone, List.append_nil] at hcues
    rw [hnone]
    exact hgreeting.trans (h.greeting hcues)
  · rw [hone]
    change cue.greeting s.app.greeting = _
    rw [Parley.line, hall, hone] at hline
    cases hbefore : p.cues with
    | nil =>
      rw [hbefore] at hline
      obtain ⟨rfl, -⟩ := List.cons.inj hline
      rfl
    | cons first cues =>
      have hold := h.greeting (by rw [hbefore]; exact List.cons_ne_nil _ _)
      rw [hbefore] at hline
      obtain ⟨-, rfl⟩ := List.cons.inj hline
      cases cue with
      | init properties' => exact absurd (by simp) (hinit properties')
      | start | message => exact hgreeting.trans hold

/-- What is planned afterwards was planned before, or is planned on a cue. -/
theorem Standing.planned_after (h : p.Standing extension properties) {s : Scene} {deed : Deed}
    {plan : List Operation} {said : List Message} (hdoes : p.Does deed plan said)
    (hlined : (p.after deed plan said s).Lined properties) (hname : s.app.name = p.scene.app.name)
    {op : Operation} (hop : op ∈ (p.after deed plan said s).plan) :
    (p.after deed plan said s).Plans op := by
  rcases List.mem_append.mp hop with hold | hnew
  · have hplanned : op ∈ p.plan := by
      cases hdoes with
      | other => exact hold
      | reply hplan => exact hplan ▸ List.mem_cons_of_mem _ hold
    cases h.planned op hplanned with
    | answer hmem => exact .answer (List.mem_append_left _ hmem)
    | say hmsg =>
      have hsame : p.scene.app.name = (p.after deed plan said s).scene.app.name := by
        rw [scene_after]
        exact hname.symm
      rw [saying_congr hsame]
      exact .say hmsg
  · obtain ⟨cue, hcue, hplan⟩ := List.mem_flatMap.mp hnew
    rcases Cue.plan_cases hplan with ⟨cmd, rfl, rfl⟩ | ⟨msg, hmsg, rfl⟩
    · obtain ⟨k, htold⟩ :=
        hlined.mem_told (List.mem_append_left _ (List.mem_append_right _ hcue))
      exact .answer htold
    · exact .say hmsg

theorem Standing.step (h : p.Standing extension properties) {part : Part}
    (hstep : p.step part = some p') : p'.Standing extension properties := by
  have hsize := h.size_step hstep
  obtain ⟨deed, plan, said, s, hdoes, hdeed, hopen, hgreeting, rfl⟩ := step_eq_some hstep
  obtain ⟨owners, hlasting⟩ := h.lasting
  obtain ⟨owners', -, hlasting'⟩ := hlasting.undergo hdeed
  obtain ⟨more, hqueue, htold, hinit, hstart⟩ := hlasting.cues_undergo hdeed hopen
  have hdeals := hlasting.deals hdeed hopen
  have hhoused := h.housed.undergo hdeed
  have hline := p.line_after hqueue plan said
  have hlined := h.lined.after hline htold hinit
  have hscene := p.scene_after deed plan said s
  have hrouter := deed.router_relieved p.scene
  refine
    { lasting := ⟨owners', ?_⟩
      housed := ?_
      opened := ?_
      table := ?_
      routes := ?_
      nextId := ?_
      lined := hlined
      starts := ?_
      greeting := h.greeting_after hlined hgreeting
      planned := fun _ => h.planned_after hdoes hlined (hhoused.name.trans h.housed.name.symm) }
  · rw [hscene]
    exact hlasting'.note { s.app with greeting := _ }
  · rw [hscene]
    exact hhoused.hands (hands_of_same rfl rfl rfl rfl fun _ => rfl) id id id
  · rw [hscene]
    exact hopen
  · rw [hscene]
    exact hdeals.closed.trans ((congrArg (·.table.closed) hrouter).trans h.table)
  · rw [hscene]
    exact hdeals.routes.trans ((congrArg Router.routes hrouter).trans h.routes)
  · have hbefore := h.nextId
    have hnext := hdeals.nextId
    rw [hrouter] at hnext
    rw [hscene] at hsize ⊢
    change p.scene.app.cells.size ≤ s.app.cells.size at hsize
    change s.app.router.table.nextId.toNat ≤ s.app.cells.size + 1
    rcases hnext with hsame | ⟨hnew, hlt⟩
    · rw [hsame]
      omega
    · rw [hnew, UInt64.toNat_add]
      have hmod := Nat.mod_le (p.scene.app.router.table.nextId.toNat + (1 : UInt64).toNat) (2 ^ 64)
      have hone : (1 : UInt64).toNat = 1 := rfl
      omega
  · have hstarts := h.starts
    rw [hline, List.countP_append, hscene]
    change _ + _ + s.runner.beginning.toNat ≤ 1
    omega

/-- Along every parley. -/
theorem Standing.run (h : p.Standing extension properties) {parts : List Part}
    (hrun : p.run parts = some p') : p'.Standing extension properties := by
  induction parts generalizing p with
  | nil =>
    cases hrun
    exact h
  | cons part parts ih =>
    obtain ⟨next, hstep, hrest⟩ := Option.bind_eq_some_iff.mp hrun
    exact ih (h.step hstep) hrest

end Standing

end Parley
end App
end Switchboard
