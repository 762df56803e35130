import Switchboard.Proofs.Run.Tally
/-!
# Counting along a course

Each deed keeps the books with the counters of commands. Only a send that is accepted counts a
command, and only the beginning of a call counts an outcome: an ending is then counted among those
that were answered or cancelled, and is no longer queued.
-/
namespace Switchboard.App

namespace Scene

section Deeds

variable {owners : List Side} {flags : List Bool} {s s' : Scene}

/-- Somebody performs an operation. -/
theorem Tallied.operate (h : s.Tallied owners flags) (op : Operation) :
    Tallied (owners ++ op.owners) (flags ++ op.flags)
      { s with
        app := (op.perform.run s.app).2
        log := s.log ++ op.entries s.app (op.perform.run s.app).1 } := by
  have hlasting := h.lasting.operate op
  obtain ⟨-, hcalm⟩ := op.keeps s.app 0 h.lasting.accounted.sound
  have hentries (i : Nat) (outcome : Outcome) :
      .handler i outcome ∉ op.entries s.app (op.perform.run s.app).1 := by
    intro hentry
    obtain ⟨-, k, heq, -⟩ := h.lasting.accounted.sent_of_operate hentry
    cases heq
  have hgrows {flags' : List Bool} {more : List Nat} (hflags : flags <+: flags')
      (hflagged : (op.perform.run s.app).2.Flagged flags')
      (htaken : (op.perform.run s.app).2.router.table.taken = s.app.router.table.taken ++ more)
      (hcounters : (op.perform.run s.app).2.counters.commands = { s.app.counters.commands with
        cmdsSent := s.app.counters.cmdsSent +
          more.countP ((owners ++ op.owners)[·]? = some .tester) }) :=
    h.grows (List.prefix_append owners op.owners) hflags hlasting hflagged htaken hcounters rfl
      hentries fun i _ => congrArg (List.countP Visit.isEnd) (hcalm.history i)
  have hother (hop : op.flags = []) : Tallied (owners ++ op.owners) (flags ++ op.flags)
      { s with
        app := (op.perform.run s.app).2
        log := s.log ++ op.entries s.app (op.perform.run s.app).1 } := by
    obtain ⟨hflagged, hcounters, htaken⟩ := op.tallies hop s.app h.flagged
    rw [hop, List.append_nil]
    refine hgrows (List.prefix_refl flags) hflagged (htaken.trans (List.append_nil _).symm) ?_
    rw [hcounters]
    rfl
  cases op with
  | sendCmd handler cmd streaming =>
    obtain ⟨hflagged, hcases⟩ := h.flagged.sendCmd handler cmd streaming
    rcases hcases with ⟨e, -, huntouched⟩ | ⟨id, -, hcounters, htaken⟩
    · exact hgrows (List.prefix_append _ _) hflagged
        (huntouched.taken.trans (List.append_nil _).symm)
        (congrArg Counters.commands huntouched.counters)
    · refine hgrows (List.prefix_append _ _) hflagged htaken ?_
      have howner : (owners ++ [handler.side])[s.app.cells.size]? = some handler.side := by
        rw [← h.lasting.accounted.placed.size]
        exact List.getElem?_concat_length
      have hcount : [s.app.cells.size].countP ((owners ++ [handler.side])[·]? = some .tester) =
          if handler.side = .tester then 1 else 0 := by
        simp [List.countP_cons, howner]
      change ((Program.sendCmd handler cmd streaming).run s.app).2.counters.commands = _
      rw [hcounters, Operation.owners, hcount, Counters.sent]
      split
      · rfl
      · rfl
  | send p msg => exact hother rfl
  | returnResult result => exact hother rfl
  | complete completion => exact hother rfl
  | stop => exact hother rfl
  | await => exact hother rfl
  | acknowledge callback => exact hother rfl

/-- Somebody takes notes. -/
theorem Tallied.note (h : s.Tallied owners flags) (notes : App)
    (hnotes : notes.counters.commands = s.app.counters.commands) :
    Tallied owners flags { s with app := s.app.annotate notes } := by
  have hunmoved : Unmoved s.app (s.app.annotate notes) := ⟨rfl, fun _ => rfl, rfl⟩
  exact h.grows (List.prefix_refl owners) (List.prefix_refl flags) (h.lasting.note notes)
    (h.flagged.unmoved hunmoved) (List.append_nil _).symm hnotes (List.append_nil _).symm nofun
    fun _ _ => rfl

end Deeds

section Tasks

variable {owners : List Side} {flags : List Bool} {s s' : Scene}

/-- An ending is counted among the answers and the cancellations. -/
theorem observe_of_terminal (c : Counters) {outcome : Outcome} (h : outcome.isTerminal = true) :
    (c.observe outcome).cmdsSent = c.cmdsSent ∧
      (c.observe outcome).results + (c.observe outcome).failed + (c.observe outcome).cancelled =
        c.results + c.failed + c.cancelled + 1 ∧
      (c.observe outcome).intermediate = c.intermediate := by
  cases outcome with
  | ok result =>
    rw [Outcome.isTerminal] at h
    rw [Counters.observe, if_pos h]
    exact ⟨rfl, by dsimp only; omega, rfl⟩
  | error fault =>
    rw [Counters.observe]
    split
    · exact ⟨rfl, by dsimp only; omega, rfl⟩
    · exact ⟨rfl, by dsimp only; omega, rfl⟩

/-- Results that are not final are counted by themselves. -/
theorem observe_of_interim (c : Counters) {outcome : Outcome} (h : outcome.isTerminal = false) :
    c.observe outcome = { c with intermediate := c.intermediate + 1 } := by
  cases outcome with
  | ok result =>
    rw [Outcome.isTerminal] at h
    rw [Counters.observe, h]
    rfl
  | error fault => cases h

/-- A handler of the tester is called with an outcome, which is counted. -/
theorem Tallied.hears (h : s.Tallied owners flags) (hlasting : s'.Lasting owners)
    (hflagged : s'.app.Flagged flags) {i : Nat} {outcome : Outcome}
    (howner : owners[i]? = some .tester)
    (hinterim : outcome.isTerminal = false → flags[i]? = some true)
    (htaken : s'.app.router.table.taken = s.app.router.table.taken)
    (hcounters : s'.app.counters = s.app.counters.observe outcome)
    (hlog : s'.log = s.log ++ [.handler i outcome])
    (hends : ∀ k, (s'.app.history k).countP Visit.isEnd =
      (s.app.history k).countP Visit.isEnd + if i = k ∧ outcome.isTerminal then 1 else 0) :
    s'.Tallied owners flags := by
  have hcalled (k : Nat) (outcome' : Outcome) (hmem : .handler k outcome' ∈ s'.log) :
      owners[k]? = some .tester := by
    rw [hlog] at hmem
    rcases List.mem_append.mp hmem with hmem | hmem
    · exact h.called k outcome' hmem
    · cases List.mem_singleton.mp hmem
      exact howner
  cases hterminal : outcome.isTerminal with
  | true =>
    obtain ⟨hsent, hended, hstreamed⟩ := observe_of_terminal s.app.counters hterminal
    have hentry : (Entry.handler i outcome).ended? = some i := if_pos hterminal
    constructor
    · exact hlasting
    · exact hflagged
    · rw [hcounters, hsent, htaken, h.sent]
    · rw [hcounters, hended, h.ended, hlog, List.countP_append]
      simp [hentry]
    · rw [hcounters, hstreamed, h.streamed, hlog, List.countP_append]
      simp [Entry.streams, hterminal]
    · intro k hk
      rw [hends, hlog, List.countP_append, h.arrived k hk]
      simp [List.countP_cons, hentry, hterminal]
    · exact hcalled
  | false =>
    have hentry : (Entry.handler i outcome).ended? = none :=
      if_neg (Bool.eq_false_iff.mp hterminal)
    rw [observe_of_interim _ hterminal] at hcounters
    constructor
    · exact hlasting
    · exact hflagged
    · rw [hcounters, htaken, h.sent]
    · rw [hcounters, h.ended, hlog, List.countP_append]
      simp [hentry]
    · rw [hcounters, h.streamed, hlog, List.countP_append]
      simp [Entry.streams, hterminal, hinterim hterminal]
    · intro k hk
      rw [hends, hlog, List.countP_append, h.arrived k hk]
      simp [hentry, hterminal]
    · exact hcalled

/-- Nothing is counted of what is no call of a handler. -/
theorem foldl_see_of_other {entries : List Entry} (h : ∀ i outcome, .handler i outcome ∉ entries)
    (c : Counters) : entries.foldl Counters.see c = c := by
  induction entries with
  | nil => rfl
  | cons entry entries ih =>
    have hsee : c.see entry = c := by
      cases entry with
      | handler i outcome => exact absurd List.mem_cons_self (h i outcome)
      | sent i => rfl
      | message msg => rfl
      | phase callback => rfl
    rw [List.foldl_cons, hsee]
    exact ih fun i outcome hmem => h i outcome (List.mem_cons_of_mem entry hmem)

/-- A worker that begins with a task other than a delivery calls no handler. -/
theorem start_of_other (s : Scene) (side : Side) {task : Task Job}
    (hother : ∀ i outcome terminal, task ≠ .job (.resume i outcome terminal)) :
    ∃ entries, (s.start side task).log = s.log ++ entries ∧
      (∀ i outcome, .handler i outcome ∉ entries) ∧
      ∀ i, (s.start side task).app.history i = s.app.history i := by
  have hif (condition : Prop) [Decidable condition] {entry : Entry}
      (hentry : ∀ i outcome, .handler i outcome ≠ entry) (i : Nat) (outcome : Outcome) :
      .handler i outcome ∉ if condition then [entry] else [] := by
    intro hmem
    split at hmem
    · exact hentry i outcome (List.mem_singleton.mp hmem)
    · cases hmem
  cases task with
  | mark => exact ⟨[], (List.append_nil _).symm, nofun, fun i => history_setWorker s.app side _ i⟩
  | job job =>
    cases job with
    | resume i outcome terminal => exact absurd rfl (hother i outcome terminal)
    | arrival msg => exact ⟨_, rfl, hif _ nofun, fun _ => rfl⟩
    | phase callback => exact ⟨_, rfl, hif _ nofun, fun _ => rfl⟩
    | initExtension properties => exact ⟨[], rfl, nofun, fun _ => rfl⟩
    | startExtension => exact ⟨[], rfl, nofun, fun _ => rfl⟩
    | completion completion => exact ⟨[], rfl, nofun, fun _ => rfl⟩

/-- What a worker has begun with is counted. -/
theorem Lasting.observe (h : s.Lasting owners) (entries : List Entry) :
    (s.observe entries).Lasting owners :=
  h.note { s.app with counters := entries.foldl Counters.see s.app.counters }

/-- What comes of a scene when a worker begins with a task, before anything is counted. -/
structure Begins (owners : List Side) (flags : List Bool) (s s' : Scene) : Prop where
  lasting : s'.Lasting owners
  flagged : s'.app.Flagged flags
  router : s'.app.router = s.app.router
  counters : s'.app.counters = s.app.counters

/-- No handler of the tester is called, and nothing is counted. -/
theorem Tallied.silent (h : s.Tallied owners flags) (hbegins : Begins owners flags s s')
    {entries : List Entry} (hlog : s'.log = s.log ++ entries)
    (hentries : ∀ i outcome, .handler i outcome ∉ entries)
    (hends : ∀ i, owners[i]? ≠ some .engine →
      (s'.app.history i).countP Visit.isEnd = (s.app.history i).countP Visit.isEnd) :
    (s'.observe (s'.log.drop s.log.length)).Tallied owners flags := by
  have hunmoved : Unmoved s'.app (s'.observe entries).app := ⟨rfl, fun _ => rfl, rfl⟩
  have hobserved : s'.log.drop s.log.length = entries := by rw [hlog, List.drop_left]
  rw [hobserved]
  have htaken : (s'.observe entries).app.router.table.taken =
      s.app.router.table.taken ++ [] := by
    rw [List.append_nil, ← hbegins.router]
    rfl
  refine h.grows (List.prefix_refl owners) (List.prefix_refl flags)
    (hbegins.lasting.observe entries) (hbegins.flagged.unmoved hunmoved) htaken ?_ hlog hentries
    hends
  change (entries.foldl Counters.see s'.app.counters).commands = _
  rw [foldl_see_of_other hentries, hbegins.counters]
  rfl

/-- A worker begins with a delivery, which calls the handler if that waits. -/
theorem Tallied.resume (h : s.Tallied owners flags) {side : Side} (hidle : s.busy side = none)
    {i : Nat} {outcome : Outcome} {terminal : Bool} {tasks : List (Task Job)}
    (hqueue : (s.app.worker side).queue = .job (.resume i outcome terminal) :: tasks)
    (hbegins : Begins owners flags s (Scene.resume
      { s with app := s.app.popped side, runner := s.runner.countDown side } side i outcome
        terminal)) :
    let began := Scene.resume
      { s with app := s.app.popped side, runner := s.runner.countDown side } side i outcome terminal
    (began.observe (began.log.drop s.log.length)).Tallied owners flags := by
  intro began
  obtain ⟨hsound, hplaced, -⟩ := h.lasting.accounted
  have hmem : .job (.resume i outcome terminal) ∈ (s.app.worker side).queue :=
    hqueue ▸ List.mem_cons_self
  have howner := hplaced.queued side i outcome terminal hmem
  obtain rfl : terminal = outcome.isTerminal := hsound.honest side _ hmem
  have hlt : i < s.app.cells.size := by
    rw [← hplaced.size]
    exact (List.getElem?_eq_some_iff.mp howner).1
  let c := s.app.cells[i]
  have hfound : s.app.cells[i]? = some c := Array.getElem?_eq_getElem hlt
  have hfound' : (s.app.popped side).cells[i]? = some c := by
    rw [← hfound]
    exact congrArg (·[i]?) (cells_setWorker s.app side _)
  have harrives {called : Bool} (happ : began.app =
        (s.app.popped side).setCell i (c.takeOut outcome outcome.isTerminal).2)
      (hhistory : (c.takeOut outcome outcome.isTerminal).2.history =
        c.history ++ [.arrival outcome outcome.isTerminal called]) (k : Nat) :
      (began.app.history k).countP Visit.isEnd = (s.app.history k).countP Visit.isEnd +
        if i = k ∧ outcome.isTerminal then 1 else 0 := by
    rw [happ, history_setCell hfound']
    by_cases heq : i = k
    · subst heq
      rw [if_pos rfl, hhistory, List.countP_append, history_of_getElem? hfound]
      cases outcome.isTerminal with
      | true => simp [Visit.isEnd]
      | false => simp [Visit.isEnd]
    · rw [if_neg heq, popped, history_setWorker]
      simp [heq]
  by_cases hwaits : ∃ handler, c.slot = .waiting handler
  · obtain ⟨handler, hslot⟩ := hwaits
    have hside := hplaced.handlers i c handler hfound hslot
    rw [howner, Option.some.injEq] at hside
    obtain ⟨hbegan, hhistory⟩ := resume_of_waiting
      (s := { s with app := s.app.popped side, runner := s.runner.countDown side })
      hfound' hslot side outcome outcome.isTerminal
    have hends := harrives (congrArg Scene.app hbegan) hhistory
    have hlog : began.log = s.log ++ if side = .tester then [.handler i outcome] else [] := by
      rw [hside]
      exact congrArg Scene.log hbegan
    cases side with
    | tester =>
      have hobserved : began.log.drop s.log.length = [.handler i outcome] := by
        rw [hlog, List.drop_left]
        rfl
      have hinterim (hopen : outcome.isTerminal = false) : flags[i]? = some true :=
        h.flagged.queued .tester i outcome (hopen ▸ hmem)
      have hunmoved : Unmoved began.app (began.observe [.handler i outcome]).app :=
        ⟨rfl, fun _ => rfl, rfl⟩
      rw [hobserved]
      exact h.hears (hbegins.lasting.observe _) (hbegins.flagged.unmoved hunmoved) howner hinterim
        (congrArg (·.table.taken) hbegins.router) (congrArg (·.observe outcome) hbegins.counters)
        hlog hends
    | engine =>
      refine h.silent hbegins hlog (fun _ _ => List.not_mem_nil) fun k hk => ?_
      have hne : ¬ (i = k ∧ outcome.isTerminal = true) := fun heq => hk (heq.1 ▸ howner)
      rw [hends, if_neg hne, Nat.add_zero]
  · -- an ending does not miss its handler
    have hinterim : outcome.isTerminal = false := by
      by_contra hterminal
      rw [Bool.not_eq_false] at hterminal
      rw [hterminal] at hqueue
      obtain ⟨c', handler, hfound', hslot⟩ := h.lasting.accounted.exists_waiting hidle hqueue
      rw [hfound, Option.some.injEq] at hfound'
      exact hwaits ⟨handler, hfound' ▸ hslot⟩
    obtain ⟨hbegan, hhistory⟩ := resume_of_missing
      (s := { s with app := s.app.popped side, runner := s.runner.countDown side })
      hfound' (fun handler hslot => hwaits ⟨handler, hslot⟩) side outcome outcome.isTerminal
    refine h.silent hbegins (congrArg Scene.log hbegan) (fun _ _ => List.not_mem_nil)
      fun k _ => ?_
    rw [harrives (congrArg Scene.app hbegan) hhistory, hinterim]
    simp

/-- A worker begins with its oldest task. If that calls a handler of the tester, the outcome is
counted. -/
theorem Tallied.take (h : s.Tallied owners flags) {side : Side} (hidle : s.busy side = none)
    {task : Task Job} {tasks : List (Task Job)}
    (hqueue : (s.app.worker side).queue = task :: tasks) :
    let began := start { s with app := s.app.popped side, runner := s.runner.countDown side } side
      task
    (began.observe (began.log.drop s.log.length)).Tallied owners flags := by
  intro began
  have hbegins : Begins owners flags s began := by
    obtain ⟨hunshaken, -⟩ := unshaken_start
      { s with app := s.app.popped side, runner := s.runner.countDown side } side task
    have hlasting : began.Lasting owners := h.lasting.take hidle hqueue
    have hrouter : began.app.router = s.app.router :=
      hunshaken.router.trans (router_setWorker s.app side _)
    refine ⟨hlasting, h.flagged.shrinks hrouter (fun other => ?_) ?_, hrouter,
      hunshaken.counters.trans (counters_setWorker s.app side _)⟩
    · rw [hunshaken.queue, queue_popped]
      split
      · next heq =>
        subst heq
        exact List.tail_subset _
      · exact List.Subset.refl _
    · exact hlasting.accounted.placed.size.symm.trans h.lasting.accounted.placed.size
  by_cases hresume : ∃ i outcome terminal, task = .job (.resume i outcome terminal)
  · obtain ⟨i, outcome, terminal, rfl⟩ := hresume
    exact h.resume hidle hqueue hbegins
  · have hother (i : Nat) (outcome : Outcome) (terminal : Bool) :
        task ≠ .job (.resume i outcome terminal) := fun heq => hresume ⟨i, outcome, terminal, heq⟩
    obtain ⟨entries, hlog, hentries, hhistory⟩ := start_of_other
      { s with app := s.app.popped side, runner := s.runner.countDown side } side hother
    refine h.silent hbegins hlog hentries fun i _ => congrArg (List.countP Visit.isEnd) ?_
    exact (hhistory i).trans (history_setWorker s.app side _ i)

end Tasks

section Courses

variable {owners : List Side} {flags : List Bool} {s s' : Scene}

/-- Nothing is counted, taken or called by what is neither an operation nor the begin of a task. -/
theorem Tallied.undergo (h : s.Tallied owners flags) {deed : Deed}
    (hdeed : s.undergo deed = some s') (huncounted : Uncounted flags s.app s'.app)
    (hlog : s'.log = s.log)
    (hends : ∀ i, (s'.app.history i).countP Visit.isEnd = (s.app.history i).countP Visit.isEnd) :
    s'.Tallied owners flags := by
  obtain ⟨owners', howners, hlasting⟩ := h.lasting.undergo hdeed
  have hlength : owners.length = owners'.length := by
    rw [h.lasting.accounted.placed.size, hlasting.accounted.placed.size, ← h.flagged.size,
      ← huncounted.flagged.size]
  obtain rfl := howners.eq_of_length hlength
  exact h.still hlasting huncounted hlog hends

/-- The runner does something by which no commands are counted or taken. -/
theorem Tallied.become (h : s.Tallied owners flags) {α : Type} {p : Program α} (hp : Keeps p)
    (htallies : Tallies flags α p) {next : α → Runner} {deed : Deed}
    (hdeed : s.undergo deed = some (s.become p next)) :
    (s.become p next).Tallied owners flags := by
  obtain ⟨-, hcalm⟩ := hp s.app 0 h.lasting.accounted.sound
  exact h.undergo hdeed (htallies s.app h.flagged) rfl fun i =>
    congrArg (List.countP Visit.isEnd) (hcalm.history i)

/-- No ending arrives when a job ends. -/
theorem countP_isEnd_ending (a : App) (business : Business) (i : Nat) :
    ((a.ending business).history i).countP Visit.isEnd = (a.history i).countP Visit.isEnd := by
  cases business with
  | other => rfl
  | call k handler terminal =>
    rw [ending, Array.getD_eq_getD_getElem?]
    cases hfound : a.cells[k]? with
    | none => rw [setCell_of_size_le (Array.getElem?_eq_none_iff.mp hfound)]
    | some c =>
      rw [history_setCell hfound]
      split
      · next heq =>
        subst heq
        dsimp only [Option.getD_some]
        rw [c.history_putBack, List.countP_append, history_of_getElem? hfound]
        rfl
      · rfl

/-- A job ends. -/
theorem Tallied.finish (h : s.Tallied owners flags) {side : Side} {ended : Except Panic Unit}
    (hdeed : s.undergo (.act (.finish side ended)) = some s') : s'.Tallied owners flags := by
  have hperform : s.finish side ended = some s' := hdeed
  obtain ⟨business, -, rfl⟩ := Option.map_eq_some_iff.mp hperform
  have hunshaken := unshaken_ended s.app business side ended
  have hsize : ((s.app.ending business).counted side ended).cells.size = s.app.cells.size := by
    rw [counted, cells_setWorker]
    cases business with
    | other => rfl
    | call i handler terminal => exact Array.size_setIfInBounds
  have hflagged := h.flagged.shrinks hunshaken.router
    (fun other => hunshaken.queue other ▸ List.Subset.refl _) hsize
  refine h.undergo hdeed ⟨hflagged, hunshaken.counters, congrArg (·.table.taken) hunshaken.router⟩
    rfl fun i => ?_
  change (((s.app.ending business).counted side ended).history i).countP _ = _
  rw [counted, history_setWorker, countP_isEnd_ending]

/-- The runner goes on. -/
theorem Tallied.proceed (h : s.Tallied owners flags)
    (hdeed : s.undergo (.act .proceed) = some s') : s'.Tallied owners flags := by
  rcases proceed_cases hdeed with ⟨α, p, next, hp, rfl, -, -⟩ | ⟨-, rfl⟩ | ⟨side, -, rfl⟩ |
    ⟨-, rfl⟩
  · exact h.become hp.keeps (hp.tallies flags) hdeed
  · exact h.become (keeps_abort _) (tallies_abort _) hdeed
  · have hshut := h.flagged.setWorker side (w := (s.app.worker side).shutDown)
      (h.flagged.queued side)
    exact h.undergo hdeed hshut rfl fun i =>
      congrArg (List.countP Visit.isEnd) (history_setWorker s.app side _ i)
  · have hunmoved : Unmoved s.app { s.app with dropped := true, tester := none } :=
      ⟨rfl, fun _ => rfl, rfl⟩
    exact h.undergo hdeed ⟨h.flagged.unmoved hunmoved, rfl, rfl⟩ rfl fun _ => rfl

/-- Whoever has the application gives it up. -/
theorem Tallied.giveUp (h : s.Tallied owners flags) (hdeed : s.undergo .giveUp = some s') :
    s'.Tallied owners flags := by
  rcases giveUp_eq_some hdeed with ⟨-, rfl⟩ | ⟨_, -, rfl⟩
  · exact h.undergo hdeed h.flagged.still rfl fun _ => rfl
  · refine h.become keeps_timeOut ?_ hdeed
    exact composes_tallies.bind (fun _ ha => ha.still) fun _ =>
      composes_tallies.bind (tallies_abort _) fun _ => composes_tallies.pure _

/-- Whatever happens. -/
theorem Tallied.tallied (h : s.Tallied owners flags) {deed : Deed}
    (hdeed : s.tallied deed = some s') : ∃ owners', s'.Tallied owners' (flags ++ deed.flags) := by
  have hstill (hs : s'.Tallied owners flags) (hflags : deed.flags = []) :
      ∃ owners', s'.Tallied owners' (flags ++ deed.flags) := by
    rw [hflags, List.append_nil]
    exact ⟨owners, hs⟩
  cases deed with
  | giveUp => exact hstill (h.giveUp hdeed) rfl
  | act act =>
    cases act with
    | operate op =>
      cases hdeed
      exact ⟨_, h.operate op⟩
    | note notes =>
      cases hdeed
      exact hstill (h.note _ rfl) rfl
    | take side =>
      obtain ⟨began, htake, rfl⟩ := Option.map_eq_some_iff.mp hdeed
      obtain ⟨hidle, task, tasks, hqueue, rfl⟩ := take_eq_some htake
      exact hstill (h.take hidle hqueue) rfl
    | finish side ended => exact hstill (h.finish hdeed) rfl
    | call tester =>
      have hcall : s.undergo (.act (.call tester)) = some s' := hdeed
      obtain ⟨-, rfl⟩ := call_eq_some hcall
      have hunmoved : Unmoved s.app { s.app with tester := some tester } :=
        ⟨rfl, fun _ => rfl, rfl⟩
      exact hstill (h.undergo hcall ⟨h.flagged.unmoved hunmoved, rfl, rfl⟩ rfl fun _ => rfl) rfl
    | proceed => exact hstill (h.proceed hdeed) rfl

/-- Along every course. -/
theorem Tallied.tally (h : s.Tallied owners flags) {deeds : List Deed}
    (htally : s.tally deeds = some s') :
    ∃ owners', s'.Tallied owners' (flags ++ deeds.flatMap Deed.flags) := by
  induction deeds generalizing s owners flags with
  | nil =>
    cases htally
    exact ⟨owners, by rw [List.flatMap_nil, List.append_nil]; exact h⟩
  | cons deed deeds ih =>
    obtain ⟨next, hdeed, hrest⟩ := Option.bind_eq_some_iff.mp htally
    obtain ⟨owners', hnext⟩ := h.tallied hdeed
    obtain ⟨owners'', hlast⟩ := ih hnext hrest
    exact ⟨owners'', by rw [List.flatMap_cons, ← List.append_assoc]; exact hlast⟩

/-- The commands that the tester has sent were answered or cancelled, or they wait, or their endings
are queued for the tester. -/
theorem Tallied.balance (h : s.Tallied owners flags) :
    s.app.counters.cmdsSent =
      s.app.counters.results + s.app.counters.failed + s.app.counters.cancelled +
        s.app.waitingOf .tester + s.app.endingsQueued .tester := by
  rw [h.sent, h.taken_eq, h.ended]
  omega

end Courses

end Scene
end Switchboard.App
