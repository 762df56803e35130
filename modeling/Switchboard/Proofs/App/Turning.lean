import Switchboard.Proofs.App.Heedful
import Switchboard.Proofs.Foreign.Turns
/-!
# Turns of two applications

Whatever a turn is, two applications go on beside each other, unless it is for what is watched. And
whatever is referred to is there after each turn.
-/
namespace Switchboard.App

variable {w : Watch} {hand : Nat} {a b : App}

section Futures

/-- Nobody looks at futures but those who ask them. -/
theorem Beside.futures (h : Beside w hand a b) (futures futures' : List (String × FutureSend)) :
    Beside w hand { a with futures } { b with futures := futures' } where
  watched := h.watched.congr rfl (fun _ => rfl) rfl rfl
  same := h.same
  queues := h.queues
  cells := h.cells

theorem run_poll (tag : String) (a : App) :
    ∃ futures, ((Program.poll tag).run a).2 = { a with futures } := by
  have hget : (get : Program App).run a = (a, a) := rfl
  rw [Program.poll, run_bind, hget]
  cases a.futures.lookup tag with
  | none => exact ⟨a.futures, rfl⟩
  | some future =>
    dsimp only
    cases Program.readiness future a.promises with
    | none => exact ⟨a.futures, rfl⟩
    | some answer => exact ⟨_, rfl⟩

/-- Promises are made in both applications, with whatever numbers. -/
theorem Beside.promised (h : Beside w hand a b) :
    Beside (w.above 0 (a.promises.size + 1)) hand
      (a.withPromises (a.promises.push .pending)) (b.withPromises (b.promises.push .pending)) := by
  have hheld : w.held (a.withPromises (a.promises.push .pending)) = w.held a := by
    rw [Watch.held, Watch.held]
    cases hp : w.promise with
    | none => rfl
    | some p =>
      have hlt := Nat.lt_of_lt_of_le (w.inRange p hp) h.watched.promises
      exact Array.getElem?_push.trans (if_neg (Nat.ne_of_lt hlt))
  have hsize : (a.promises.push .pending).size = a.promises.size + 1 := Array.size_push _
  refine Beside.above (h.withPromises (h.watched.withPromises ?_ ?_ ?_) _) (Nat.zero_le _) ?_
  · exact hsize ▸ Nat.le_succ _
  · rw [hheld]
    exact h.watched.fits
  · rw [hheld]
    exact h.watched.refused
  · exact Nat.le_of_eq hsize.symm

/-- The promise that is watched is not a new one. -/
theorem Watched.promise_ne_size (ha : Watched w hand a) : w.promise ≠ some a.promises.size :=
  fun hp => Nat.lt_irrefl _ (Nat.lt_of_lt_of_le (w.inRange _ hp) ha.promises)

theorem Beside.sendCmdAsync (h : Beside w hand a b) (tag : String) (cmd : Cmd) :
    Beside w hand ((Program.sendCmdAsync tag cmd).run a).2
      ((Program.sendCmdAsync tag cmd).run b).2 := by
  have hadmits : (w.above 0 (a.promises.size + 1)).Admits (.promise a.promises.size) := by
    rintro _ ⟨⟩
    exact ⟨Nat.lt_of_lt_of_le (Nat.lt_succ_self _) (Nat.le_max_right _ _),
      h.watched.promise_ne_size⟩
  have hmasked : (Handler.promise a.promises.size).masked =
      (Handler.promise b.promises.size).masked := rfl
  obtain ⟨-, hsent⟩ := heeds_sendCmd hmasked hadmits cmd false hand _ _ h.promised
  exact hsent.of_above.futures _ _

theorem Beside.sendDataAsync (h : Beside w hand a b) (tag : String) (data : Data) :
    Beside w hand ((Program.sendDataAsync tag data).run a).2
      ((Program.sendDataAsync tag data).run b).2 := by
  have hschedule : Heeds (w.above 0 (a.promises.size + 1))
      (Program.scheduleCompletion (.promise a.promises.size))
      (Program.scheduleCompletion (.promise b.promises.size)) := by
    refine heeds_scheduleCompletion rfl ?_
    rintro _ ⟨⟩
    exact ⟨Nat.lt_of_lt_of_le (Nat.lt_succ_self _) (Nat.le_max_right _ _),
      h.watched.promise_ne_size⟩
  have hsend : Heeds (w.above 0 (a.promises.size + 1))
      (Program.send .tester (.data data) (some (.promise a.promises.size)))
      (Program.send .tester (.data data) (some (.promise b.promises.size))) :=
    heeds_consult (fun c => heeds_counted
      (composes_heeds.send fits_heeds.toReaches (c.outlet .tester) (.data data)) _ hschedule)
      fun _ => rfl
  obtain ⟨-, hsent⟩ := hsend hand _ _ h.promised
  exact hsent.of_above.futures _ _

end Futures

section Turns

theorem exists_queue_of_next {J : Type} {v : Worker J} {task : Task J}
    (h : v.next.1 = some task) : ∃ tasks, v.queue = task :: tasks := by
  rw [Worker.next] at h
  cases hqueue : v.queue with
  | nil =>
    rw [hqueue] at h
    cases h
  | cons first tasks =>
    rw [hqueue] at h
    obtain rfl := Option.some.inj h
    exact ⟨tasks, rfl⟩

/-- A turn is for what is watched. -/
def Turn.Meets (w : Watch) (a : App) : Turn → Prop
  | task side => ∃ task, (a.worker side).next.1 = some task ∧ w.keeps task = true
  | step .. | host _ | start _ | answer _ | flush _ | abort _ | shutDown _ | leave => False

/-- A step from outside. -/
theorem Beside.perform (h : Beside w hand a b) {s : Step} (own : s.isOwn) :
    Beside w hand ((Program.perform s).run a).2 ((Program.perform s).run b).2 := by
  cases s with
  | dropApp => cases own
  | foreign call => cases own
  | act action =>
    have hact : Heeds w (Program.perform (.act action)) (Program.perform (.act action)) := by
      apply (heeds_act .tester false none action).bind
      intro answer
      cases answer with
      | ok answer => exact heeds_pure _
      | error panic => exact heeds_pure _
    exact (hact hand a b h).2
  | ext actions =>
    have hext : Heeds w (Program.perform (.ext actions)) (Program.perform (.ext actions)) := by
      apply (heeds_actAll .engine false none actions).bind
      intro ended
      cases ended with
      | ok _ => exact heeds_pure _
      | error panic => exact heeds_pure _
    exact (hext hand a b h).2
  | asyncCmd tag cmd => exact h.sendCmdAsync tag cmd
  | asyncData tag data => exact h.sendDataAsync tag data
  | poll tag =>
    obtain ⟨futures, heq⟩ := run_poll tag a
    obtain ⟨futures', heq'⟩ := run_poll tag b
    change Beside w hand ((Program.poll tag).run a).2 ((Program.poll tag).run b).2
    rw [heq, heq']
    exact h.futures futures futures'
  | dropFuture tag => exact h.futures _ _

/-- A worker runs its oldest job. -/
theorem run_advance_job {side : Side} {job : Job} (h : (a.worker side).next.1 = some (.job job)) :
    ((Program.advance side).run a).2 =
      ((Program.runJob side job).run (a.popped side)).2.counted side
        ((Program.runJob side job).run (a.popped side)).1 := by
  have hrun : ((Program.worker side).step Worker.next).run a =
      ((a.worker side).next.1, a.popped side) := rfl
  rw [Program.advance, run_bind, hrun, h]
  rfl

/-- A worker comes to a mark. -/
theorem run_advance_mark {side : Side} (h : (a.worker side).next.1 = some .mark) :
    ((Program.advance side).run a).2 = (a.popped side).counted side (.ok ()) := by
  have hrun : ((Program.worker side).step Worker.next).run a =
      ((a.worker side).next.1, a.popped side) := rfl
  rw [Program.advance, run_bind, hrun, h]
  rfl

/-- Nothing becomes of an application whose worker has nothing to do. -/
theorem run_advance_nil {side : Side} (h : (a.worker side).queue = []) :
    ((Program.advance side).run a).2 = a := by
  have hnext : (a.worker side).next = (none, a.worker side) := by rw [Worker.next, h]
  rw [run_advance_of_nil h, popped, hnext, setWorker_self]

/-- A worker runs a task that is not for what is watched, or has none. -/
theorem Beside.advance (h : Beside w hand a b) (side : Side)
    (hkeeps : ∀ task, (a.worker side).next.1 = some task → w.keeps task = false) :
    Beside w hand ((Program.advance side).run a).2 ((Program.advance side).run b).2 := by
  cases hqueue : (a.worker side).queue with
  | nil =>
    have hqueue' : (b.worker side).queue = [] := by
      have hqueues := h.queues side
      rw [hqueue] at hqueues
      exact List.map_eq_nil_iff.mp hqueues.symm
    rw [run_advance_nil hqueue, run_advance_nil hqueue']
    exact h
  | cons task tasks =>
    have hnext : (a.worker side).next.1 = some task := by rw [Worker.next, hqueue]
    have hother := hkeeps task hnext
    obtain ⟨task', hnext', halike, hpopped⟩ := h.popped hqueue
    rw [if_neg (by rw [hother]; exact Bool.false_ne_true)] at hpopped
    rw [w.replaced_eq (.inl hother)] at halike
    rcases task with job | _
    · rcases task' with job' | _
      · have hrun := heeds_runJob (w := w) side (Task.job.inj halike) hother
        obtain ⟨hended, hafter⟩ := hrun hand _ _ hpopped
        rw [run_advance_job hnext, run_advance_job hnext', ← hended]
        exact hafter.counted side _
      · cases halike
    · rcases task' with job' | _
      · cases halike
      · rw [run_advance_mark hnext, run_advance_mark hnext']
        exact hpopped.counted side _

/-- Whatever happens that is not for what is watched, both applications go on beside each other. -/
theorem Beside.turned (h : Beside w hand a b) {t : Turn}
    (hmeets : ¬ t.Meets w a) : Beside w hand (a.turned t) (b.turned t) := by
  have hschedule (callback : PhaseCallback) : Heeds w (Program.schedulePhase callback)
      (Program.schedulePhase callback) :=
    (heeds_accept .tester (.job (.phase callback)) _ rfl trivial rfl).answer
  have hheeds {α : Type} {p : Program α} (hp : Heeds w p p) : Beside w hand (p.run a).2
      (p.run b).2 := (hp hand a b h).2
  cases t with
  | step s own => exact h.perform own
  | host call => exact hheeds (heeds_foreign call)
  | task side =>
    exact h.advance side fun task hnext =>
      Bool.not_eq_true _ ▸ fun hkeeps => hmeets ⟨task, hnext, hkeeps⟩
  | start tester =>
    refine hheeds (Heeds.answer ?_)
    have hinstall : Heeds w (modify fun a : App => { a with tester := some tester } : Program PUnit)
        (modify fun a : App => { a with tester := some tester }) :=
      heeds_modify ⟨fun _ => rfl, fun _ _ => rfl, fun _ => rfl, fun _ => rfl, fun _ => rfl,
        fun _ => rfl⟩
    exact hinstall.bind fun _ => (hschedule .start).bind fun _ =>
      (heeds_accept .engine (.job .startExtension) _ rfl trivial rfl).answer
  | answer event =>
    refine hheeds (Heeds.answer ?_)
    cases event with
    | started => exact heeds_pure _
    | stopping => exact (hschedule .stop).answer
    | stopped => exact (hschedule .deinit).answer
    | deinited => exact heeds_pure _
  | flush side => exact hheeds (heeds_accept side .mark .mark rfl trivial rfl).answer
  | abort reason => exact hheeds (heeds_abort reason).answer
  | shutDown side => exact h.shutDown side
  | leave =>
    refine hheeds (Heeds.answer (heeds_modify ?_))
    exact ⟨fun _ => rfl, fun _ _ => rfl, fun _ => rfl, fun _ => rfl, fun _ => rfl, fun _ => rfl⟩

end Turns

section Over

/-- A continuation is watched that nothing is owed to any more, and a promise that nobody will keep
any more, with what they are; or none. -/
def Watch.over (cell : Option (Nat × Continuation Handler)) (promise : Option (Nat × Promise)) :
    Watch where
  cell
  promise := promise.map (·.1)
  promises := promise.elim 0 (·.1 + 1)
  fits owed held := owed = 0 ∧ held = promise.map (·.2)
  inRange p hp := by
    obtain ⟨kept, rfl, rfl⟩ := Option.map_eq_some_iff.mp hp
    exact Nat.lt_succ_self _
  loses k c n held hcell hfits := absurd hfits.1 (Nat.succ_ne_zero n)

variable {cell : Option (Nat × Continuation Handler)} {promise : Option (Nat × Promise)}

/-- Whatever is referred to is there, and nothing waits or is queued for what is watched. -/
theorem Anchored.over (ha : a.Anchored) (hcell : ∀ k c, cell = some (k, c) → a.cells[k]? = some c)
    (hpromise : ∀ p held, promise = some (p, held) → a.promises[p]? = some held)
    (hsole : ∀ (i : Nat) (c : Continuation Handler) (p : Nat), promise.map (·.1) = some p →
      a.cells[i]? = some c → c.slot = .waiting (.promise p) → cell.map (·.1) = some i)
    (hwaiting : (Watch.over cell promise).waiting a.router.table = 0)
    (hqueues : ∀ side, ∀ task ∈ (a.worker side).queue,
      (Watch.over cell promise).keeps task = false)
    (hlost : ∀ p, promise = some (p, .lost) → a.testerWorker.accepting = false) :
    Watched (.over cell promise) 0 a := by
  have hheld : (Watch.over cell promise).held a = promise.map (·.2) := by
    rw [Watch.held]
    cases hkept : promise with
    | none => rfl
    | some kept => exact hpromise kept.1 kept.2 hkept
  refine { ha with
    cell := hcell
    cells := Nat.zero_le _
    promises := ?_
    sole := hsole
    asked := fun e he hnumber => ?_
    kept := fun side task htask hkeeps => ?_
    fits := ⟨?_, hheld⟩
    refused := fun hheldLost => ?_ }
  · cases hkept : promise with
    | none => exact Nat.zero_le _
    | some kept => exact (Array.getElem?_eq_some_iff.mp (hpromise kept.1 kept.2 hkept)).1
  · rw [Watch.waiting, hnumber] at hwaiting
    have hnone := List.countP_eq_zero.mp hwaiting e he
    exact absurd (decide_eq_true rfl) hnone
  · rw [hqueues side task htask] at hkeeps
    cases hkeeps
  · rw [Watch.owed, hwaiting, Nat.zero_add, Nat.zero_add]
    refine List.countP_eq_zero.mpr fun task htask => ?_
    rw [hqueues .tester task htask]
    exact Bool.false_ne_true
  · rw [hheld] at hheldLost
    obtain ⟨⟨p, _⟩, hkept, rfl⟩ := Option.map_eq_some_iff.mp hheldLost
    exact hlost p hkept

/-- A task that is not for what is watched is not for less. -/
theorem Watch.keeps_eq_false_of {w' : Watch} {task : Task Job} (h : w.keeps task = false)
    (hnumber : ∀ k, w'.number = some k → w.number = some k)
    (hpromise : ∀ p, w'.promise = some p → w.promise = some p) : w'.keeps task = false := by
  rcases task with job | _
  · cases job with
    | resume k outcome terminal =>
      exact decide_eq_false fun hk => of_decide_eq_false h (hnumber k hk)
    | completion c =>
      cases c with
      | promise p => exact decide_eq_false fun hp => of_decide_eq_false h (hpromise p hp)
      | scripted | foreign => rfl
    | arrival | initExtension | startExtension | phase => rfl
  · rfl

/-- Where nothing is owed, nothing waits, and no task is for what is watched. -/
theorem Watched.idle (ha : Watched w hand a) (howed : w.owed a = 0) :
    w.waiting a.router.table = 0 ∧
      ∀ side, ∀ task ∈ (a.worker side).queue, w.keeps task = false := by
  obtain ⟨hwaiting, hqueued⟩ := Nat.add_eq_zero_iff.mp howed
  refine ⟨hwaiting, fun side task htask => ?_⟩
  rw [← Bool.not_eq_true]
  intro hkeeps
  obtain ⟨rfl, -⟩ := ha.kept side task htask hkeeps
  exact List.countP_eq_zero.mp hqueued task htask hkeeps

/-- No turn is for what is over. -/
theorem Watched.not_meets_of_over (ha : Watched (.over cell promise) 0 a) (t : Turn) :
    ¬ t.Meets (.over cell promise) a := by
  intro hmeets
  cases t with
  | task side =>
    obtain ⟨task, hnext, hkeeps⟩ := hmeets
    obtain ⟨hnone, -⟩ := ha.fits
    rw [Nat.zero_add] at hnone
    obtain ⟨tasks, hqueue⟩ := exists_queue_of_next hnext
    rw [(ha.idle hnone).2 side task (hqueue ▸ List.mem_cons_self)] at hkeeps
    cases hkeeps
  | step | host | start | answer | flush | abort | shutDown | leave => exact hmeets

/-- What is over is over for good. -/
theorem Watched.over_turned (ha : Watched (.over cell promise) 0 a) (t : Turn) :
    Watched (.over cell promise) 0 (a.turned t) :=
  ((ha.beside rfl).turned (ha.not_meets_of_over t)).watched

theorem Watched.over_course (ha : Watched (.over cell promise) 0 a) (turns : List Turn) :
    Watched (.over cell promise) 0 (turns.foldl App.turned a) := by
  induction turns generalizing a with
  | nil => exact ha
  | cons t turns ih => exact ih (ha.over_turned t)

end Over

section Anchors

/-- Nothing at all is watched. -/
theorem Anchored.watched (ha : a.Anchored) : Watched (.over none none) 0 a := by
  refine ha.over nofun nofun nofun rfl (fun side task _ => ?_) nofun
  rcases task with job | _
  · cases job with
    | completion c =>
      cases c with
      | promise | scripted | foreign => rfl
    | resume | arrival | initExtension | startExtension | phase => rfl
  · rfl

/-- Whatever happens, everything that is referred to is there. -/
theorem Anchored.turned (ha : a.Anchored) (t : Turn) : (a.turned t).Anchored :=
  (ha.watched.over_turned t).toAnchored

theorem Anchored.popped (ha : a.Anchored) (side : Side) : (a.popped side).Anchored := by
  cases hqueue : (a.worker side).queue with
  | nil =>
    have hnext : (a.worker side).next = (none, a.worker side) := by rw [Worker.next, hqueue]
    rw [App.popped, hnext, setWorker_self]
    exact ha
  | cons task tasks =>
    obtain ⟨-, -, -, hpopped⟩ := (ha.watched.beside rfl).popped hqueue
    exact hpopped.watched.toAnchored

theorem Anchored.course (ha : a.Anchored) (turns : List Turn) :
    (turns.foldl App.turned a).Anchored :=
  (ha.watched.over_course turns).toAnchored

theorem anchored_of_build {config : Config} {name : Option String} {properties : String}
    {extension : Extension} {built : App}
    (hbuilt : build config name properties extension = .ok built) : built.Anchored := by
  obtain ⟨name, properties, rfl⟩ := eq_ofParts_of_build hbuilt
  constructor
  · exact PendingTable.sharded_ofShards _
  · intro e he
    simp [ofParts] at he
  · intro side task htask
    cases side with
    | tester => exact absurd htask List.not_mem_nil
    | engine =>
      obtain rfl := List.mem_singleton.mp htask
      trivial
  · intro i c p hfound
    simp [ofParts] at hfound

end Anchors

end Switchboard.App
