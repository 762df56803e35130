import Switchboard.Proofs.App.Drives
import Switchboard.Proofs.Run.Pace
import Switchboard.Proofs.Run.Scene
/-!
# The books of a scene

While workers are in the middle of their jobs, the accounts of the application are sound, and the
handlers that are missing are just those that the workers are calling. Every continuation belongs to
the side whose worker calls it. Of the tester's commands the log tells which were accepted and with
which outcomes their handlers were called.
-/
namespace Switchboard.App

section Cells

variable {owners : List Side} {a : App} {i : Nat} {c : Continuation Handler}

/-- Only one continuation has changed. -/
theorem Placed.setCell (ha : a.Placed owners) {c : Continuation Handler}
    (hslot : ∀ handler, c.slot = .waiting handler → owners[i]? = some handler.side) :
    (a.setCell i c).Placed owners where
  sharded := ha.sharded
  shut := ha.shut
  size := by
    rw [ha.size]
    exact Array.size_setIfInBounds.symm
  handlers k d handler hfound hwaits := by
    change (a.cells.setIfInBounds i c)[k]? = some d at hfound
    rw [Array.getElem?_setIfInBounds] at hfound
    split at hfound
    · next heq =>
      subst heq
      split at hfound
      · obtain rfl := Option.some.inj hfound
        exact hslot handler hwaits
      · cases hfound
    · exact ha.handlers k d handler hfound hwaits
  entries := ha.entries
  queued := ha.queued

theorem Placed.popped (ha : a.Placed owners) (side : Side) : (a.popped side).Placed owners := by
  apply ha.setWorker side
  · rw [accepting_next]
    exact ha.shut side
  · intro i outcome terminal h
    rw [queue_next] at h
    exact ha.queued side i outcome terminal (List.mem_of_mem_tail h)

theorem Placed.counted (ha : a.Placed owners) (side : Side) (ended : Except Panic Unit) :
    (a.counted side ended).Placed owners := by
  apply ha.setWorker side
  · rw [Worker.accepting_count]
    exact ha.shut side
  · rw [Worker.queue_count]
    exact ha.queued side

theorem Sound.counted {hand : Nat → Nat} (ha : a.Sound hand) (side : Side)
    (ended : Except Panic Unit) : (a.counted side ended).Sound hand :=
  (keeps_countTask side ended a hand ha).1

/-- A continuation that is being called is there. -/
theorem exists_of_busy {terminal : Bool} (h : a.stage i = .busy terminal) :
    ∃ c, a.cells[i]? = some c ∧ c.stage = .busy terminal := by
  rw [stage] at h
  cases hfound : a.cells[i]? with
  | none =>
    rw [history, hfound] at h
    cases h
  | some c =>
    rw [history_of_getElem? hfound] at h
    exact ⟨c, rfl, h⟩

end Cells

namespace Scene

/-- The books of a scene, with the owners of its continuations. -/
structure Accounted (owners : List Side) (s : Scene) : Prop where
  sound : s.app.Sound 0
  placed : s.app.Placed owners
  busy : ∀ i terminal, s.app.stage i = .busy terminal →
    ∃ side handler, s.busy side = some (.call i handler terminal)
  calls : ∀ side i handler terminal, s.busy side = some (.call i handler terminal) →
    s.app.stage i = .busy terminal ∧ owners[i]? = some side ∧ handler.side = side
  heard : ∀ i outcome terminal, owners[i]? = some .tester →
    .arrival outcome terminal true ∈ s.app.history i → .handler i outcome ∈ s.log
  sent : ∀ i, .sent i ∈ s.log → owners[i]? = some .tester ∧ i ∈ s.app.router.table.taken

section Acts

variable {owners : List Side} {s : Scene}

/-- No call begins or ends, though new continuations may be there. -/
theorem Accounted.still (h : s.Accounted owners) {owners' : List Side} {a : App} {runner : Runner}
    {log : List Entry} (howners : owners <+: owners') (hsound : a.Sound 0)
    (hplaced : a.Placed owners') (hstage : ∀ i, a.stage i = s.app.stage i)
    (hheard : ∀ i outcome terminal, .arrival outcome terminal true ∈ a.history i →
      .arrival outcome terminal true ∈ s.app.history i)
    (htaken : ∀ i ∈ s.app.router.table.taken, i ∈ a.router.table.taken) (hlog : s.log ⊆ log)
    (hsent : ∀ i, .sent i ∈ log → .sent i ∈ s.log ∨
      owners'[i]? = some .tester ∧ i ∈ a.router.table.taken) :
    Accounted owners' { s with app := a, runner := runner, log := log } := by
  obtain ⟨more, rfl⟩ := howners
  constructor
  · exact hsound
  · exact hplaced
  · intro i terminal hbusy
    exact h.busy i terminal ((hstage i).symm.trans hbusy)
  · intro side i handler terminal hcall
    obtain ⟨hbusy, howner, hside⟩ := h.calls side i handler terminal hcall
    exact ⟨(hstage i).trans hbusy, getElem?_more howner, hside⟩
  · intro i outcome terminal howner hmem
    have hbefore := hheard i outcome terminal hmem
    rcases Nat.lt_or_ge i owners.length with hlt | hge
    · rw [List.getElem?_append_left hlt] at howner
      exact hlog (h.heard i outcome terminal howner hbefore)
    · -- nothing has happened at a new continuation
      rw [history_of_size_le (h.placed.size ▸ hge)] at hbefore
      cases hbefore
  · intro i hi
    rcases hsent i hi with hold | hnew
    · obtain ⟨howner, hmem⟩ := h.sent i hold
      exact ⟨getElem?_more howner, htaken i hmem⟩
    · exact hnew

/-- Commands are logged that were accepted, and nothing happens at any continuation. -/
theorem Accounted.proceeds (h : s.Accounted owners) {owners' : List Side} {a : App}
    {runner : Runner} {entries : List Entry} (howners : owners <+: owners') (hsound : a.Sound 0)
    (hplaced : a.Placed owners') (hcalm : Calm s.app a)
    (hentries : ∀ i, .sent i ∈ entries →
      owners'[i]? = some .tester ∧ i ∈ a.router.table.taken) :
    Accounted owners' { s with app := a, runner := runner, log := s.log ++ entries } := by
  refine h.still howners hsound hplaced hcalm.stage (fun i outcome terminal hmem => ?_)
    hcalm.persists.table.taken (List.subset_append_left _ _) fun i hi => ?_
  · rwa [hcalm.history] at hmem
  · exact (List.mem_append.mp hi).imp_right (hentries i)

/-- Nothing happens at any continuation, and nothing is logged. -/
theorem Accounted.calm (h : s.Accounted owners) {a : App} (hsound : a.Sound 0)
    (hplaced : a.Placed owners) (hcalm : Calm s.app a) (runner : Runner) :
    Accounted owners { s with app := a, runner := runner } := by
  refine h.still (List.prefix_refl owners) hsound hplaced hcalm.stage
    (fun i outcome terminal hmem => ?_) hcalm.persists.table.taken (List.Subset.refl _)
    fun i hi => Or.inl hi
  rwa [hcalm.history] at hmem

/-- What an operation logs is a command of the tester, which was sent while the router was open and
which the table has taken. -/
theorem Accounted.sent_of_operate (h : s.Accounted owners) {op : Operation} {entry : Entry}
    (hentry : entry ∈ op.entries s.app (op.perform.run s.app).1) :
    s.app.router.closed = false ∧ ∃ i, entry = .sent i ∧
      (owners ++ op.owners)[i]? = some .tester ∧
        i ∈ (op.perform.run s.app).2.router.table.taken := by
  cases op with
  | sendCmd handler cmd streaming =>
    have hsend := h.sound.sendCmd handler cmd streaming
    change entry ∈ Operation.entries s.app (.sendCmd handler cmd streaming)
      ((Program.sendCmd handler cmd streaming).run s.app).1 at hentry
    cases hanswer : ((Program.sendCmd handler cmd streaming).run s.app).1 with
    | error e =>
      rw [hanswer] at hentry
      cases hentry
    | ok id =>
      rw [hanswer, Operation.entries] at hentry
      split at hentry
      · next hside =>
        refine ⟨?_, s.app.cells.size, List.mem_singleton.mp hentry, ?_, hsend.taken id hanswer⟩
        · by_contra hclosed
          obtain ⟨fault, hrefused⟩ := run_sendCmd_eq_error (Bool.not_eq_false _ ▸ hclosed) handler
            cmd streaming
          rw [hanswer] at hrefused
          cases hrefused
        · rw [← h.placed.size, Operation.owners, hside]
          exact List.getElem?_concat_length
      · cases hentry
  | send p msg => cases hentry
  | returnResult result => cases hentry
  | complete completion => cases hentry
  | stop => cases hentry
  | await => cases hentry
  | acknowledge callback => cases hentry

/-- Nothing happens to the continuations or to the router. -/
theorem Accounted.stay (h : s.Accounted owners) {a : App} (hsound : a.Sound 0)
    (hplaced : a.Placed owners) (hcells : a.cells = s.app.cells)
    (hrouter : a.router = s.app.router) (runner : Runner) :
    Accounted owners { s with app := a, runner := runner } := by
  have hhistory (i : Nat) : a.history i = s.app.history i := by rw [history, history, hcells]
  refine h.still (List.prefix_refl owners) hsound hplaced
    (fun i => congrArg Stage.after (hhistory i)) (fun i outcome terminal hmem => ?_)
    (fun i hi => ?_) (List.Subset.refl _) fun i hi => Or.inl hi
  · rwa [hhistory] at hmem
  · rwa [hrouter]

/-- A worker that is busy is another one than one that is idle. -/
theorem ne_of_busy {side other : Side} {business : Business} (hidle : s.busy side = none)
    (hbusy : s.busy other = some business) : other ≠ side := by
  rintro rfl
  rw [hidle] at hbusy
  cases hbusy

/-- An idle worker gets busy with something that is no call. -/
theorem Accounted.occupy (h : s.Accounted owners) {side : Side} (hidle : s.busy side = none)
    {entries : List Entry} (hentries : ∀ i, .sent i ∉ entries) :
    (s.occupy side .other entries).Accounted owners where
  sound := h.sound
  placed := h.placed
  busy i terminal hbusy := by
    obtain ⟨other, handler, hcall⟩ := h.busy i terminal hbusy
    exact ⟨other, handler, (Function.update_of_ne (ne_of_busy hidle hcall) _ _).trans hcall⟩
  calls other i handler terminal hcall := by
    change Function.update s.busy side (some .other) other = _ at hcall
    by_cases heq : other = side
    · rw [heq, Function.update_self] at hcall
      cases hcall
    · rw [Function.update_of_ne heq] at hcall
      exact h.calls other i handler terminal hcall
  heard i outcome terminal howner hmem :=
    List.mem_append_left entries (h.heard i outcome terminal howner hmem)
  sent i hi := by
    rcases List.mem_append.mp hi with hi | hi
    · exact h.sent i hi
    · exact absurd hi (hentries i)

/-- A worker that is idle calls none of its continuations. -/
theorem Accounted.not_busy (h : s.Accounted owners) {side : Side} {i : Nat}
    (hidle : s.busy side = none) (howner : owners[i]? = some side) (terminal : Bool) :
    s.app.stage i ≠ .busy terminal := by
  intro hbusy
  obtain ⟨other, handler, hcall⟩ := h.busy i terminal hbusy
  obtain ⟨-, howner', -⟩ := h.calls other i handler terminal hcall
  rw [howner] at howner'
  obtain rfl := Option.some.inj howner'
  rw [hidle] at hcall
  cases hcall

/-- A worker begins with a task that is no delivery. -/
theorem Accounted.popped (h : s.Accounted owners) {side : Side} {task : Task Job}
    {tasks : List (Task Job)} (hqueue : (s.app.worker side).queue = task :: tasks)
    (hnone : endingsOf task = 0) (runner : Runner) :
    Accounted owners { s with app := s.app.popped side, runner := runner } := by
  have hsound := h.sound.popped side
  have hnext : (s.app.worker side).next.1 = some task := by rw [Worker.next, hqueue]
  rw [hnext] at hsound
  change (s.app.popped side).Sound (endingsOf task) at hsound
  rw [hnone] at hsound
  exact h.stay hsound (h.placed.popped side) (cells_setWorker s.app side _)
    (router_setWorker s.app side _) runner

/-- A handler is taken out and called by the worker of its owner. -/
theorem Accounted.call (h : s.Accounted owners) {side : Side} (hidle : s.busy side = none)
    {i : Nat} {outcome : Outcome} {terminal : Bool} {handler : Handler} {c d : Continuation Handler}
    {a : App} {runner : Runner} (hsound : (a.setCell i d).Sound 0)
    (hplaced : (a.setCell i d).Placed owners) (hcells : a.cells = s.app.cells)
    (htable : a.router.table = s.app.router.table) (hfound : a.cells[i]? = some c)
    (howner : owners[i]? = some side) (hside : handler.side = side)
    (hhistory : d.history = c.history ++ [.arrival outcome terminal true])
    (hstage : d.stage = .busy terminal) :
    Accounted owners
      (Scene.occupy { s with app := a.setCell i d, runner := runner } side
        (.call i handler terminal)
        (if handler.side = .tester then [.handler i outcome] else [])) := by
  have hbefore (k : Nat) : a.history k = s.app.history k := by rw [history, history, hcells]
  have hstages (k : Nat) : (a.setCell i d).stage k =
      if i = k then .busy terminal else s.app.stage k := by
    rw [stage_setCell hfound, hstage, stage, hbefore]
    rfl
  constructor
  · exact hsound
  · exact hplaced
  · intro k busyWith hbusy
    change (a.setCell i d).stage k = _ at hbusy
    rw [hstages] at hbusy
    split at hbusy
    · next heq =>
      subst heq
      cases hbusy
      exact ⟨side, handler, Function.update_self side _ _⟩
    · obtain ⟨other, handler', hcall⟩ := h.busy k busyWith hbusy
      exact ⟨other, handler', (Function.update_of_ne (ne_of_busy hidle hcall) _ _).trans hcall⟩
  · intro other k handler' busyWith hcall
    change Function.update s.busy side (some (.call i handler terminal)) other = _ at hcall
    change (a.setCell i d).stage k = _ ∧ _
    rw [hstages]
    by_cases heq : other = side
    · subst heq
      rw [Function.update_self] at hcall
      cases hcall
      exact ⟨if_pos rfl, howner, hside⟩
    · rw [Function.update_of_ne heq] at hcall
      obtain ⟨hbusy, howner', hside'⟩ := h.calls other k handler' busyWith hcall
      -- the other worker calls a continuation of its own
      have hne : i ≠ k := by
        rintro rfl
        rw [howner] at howner'
        exact heq (Option.some.inj howner').symm
      rw [if_neg hne]
      exact ⟨hbusy, howner', hside'⟩
  · intro k outcome' terminal' howner' hmem
    change _ ∈ (a.setCell i d).history k at hmem
    rw [history_setCell hfound] at hmem
    split at hmem
    · next heq =>
      subst heq
      rw [hhistory, List.mem_append, List.mem_singleton] at hmem
      rcases hmem with hold | hnew
      · rw [← history_of_getElem? hfound, hbefore] at hold
        exact List.mem_append_left _ (h.heard i outcome' terminal' howner' hold)
      · cases hnew
        rw [howner'] at howner
        rw [hside, ← Option.some.inj howner, if_pos rfl]
        exact List.mem_append_right _ List.mem_cons_self
    · rw [hbefore] at hmem
      exact List.mem_append_left _ (h.heard k outcome' terminal' howner' hmem)
  · intro k hk
    change owners[k]? = some .tester ∧ k ∈ a.router.table.taken
    rw [htable]
    rcases List.mem_append.mp hk with hk | hk
    · exact h.sent k hk
    · split at hk
      · cases List.mem_singleton.mp hk
      · cases hk

/-- A delivery that finds no handler is dropped. -/
theorem Accounted.dropped (h : s.Accounted owners) {side : Side} (hidle : s.busy side = none)
    {i : Nat} {outcome : Outcome} {terminal : Bool} {c d : Continuation Handler} {a : App}
    {runner : Runner} (hsound : (a.setCell i d).Sound 0)
    (hplaced : (a.setCell i d).Placed owners) (hcells : a.cells = s.app.cells)
    (htable : a.router.table = s.app.router.table) (hfound : a.cells[i]? = some c)
    (hhistory : d.history = c.history ++ [.arrival outcome terminal false])
    (hstage : d.stage = c.stage) :
    Accounted owners
      (Scene.occupy { s with app := a.setCell i d, runner := runner } side .other []) := by
  have hbefore (k : Nat) : a.history k = s.app.history k := by rw [history, history, hcells]
  refine Accounted.occupy (h.still (List.prefix_refl owners) hsound hplaced (fun k => ?_)
    (fun k outcome' terminal' hk => ?_) (fun k hk => ?_) (List.Subset.refl _)
    fun k hk => Or.inl hk) hidle fun _ => List.not_mem_nil
  · have hbefore' : s.app.stage k = a.stage k := congrArg Stage.after (hbefore k).symm
    rw [stage_setCell hfound, hstage, hbefore']
    split
    · next heq =>
      subst heq
      rw [stage, history_of_getElem? hfound]
      rfl
    · rfl
  · rw [history_setCell hfound] at hk
    rw [← hbefore]
    split at hk
    · next heq =>
      subst heq
      rw [hhistory, List.mem_append, List.mem_singleton] at hk
      rw [history_of_getElem? hfound]
      rcases hk with hk | hk
      · exact hk
      · cases hk
    · exact hk
  · change k ∈ a.router.table.taken
    rw [htable]
    exact hk

/-- A worker begins with a delivery, which calls the handler if that is there. -/
theorem Accounted.resume (h : s.Accounted owners) {side : Side} (hidle : s.busy side = none)
    {i : Nat} {outcome : Outcome} {terminal : Bool} {tasks : List (Task Job)}
    (hqueue : (s.app.worker side).queue = .job (.resume i outcome terminal) :: tasks)
    (runner : Runner) :
    (Scene.resume { s with app := s.app.popped side, runner := runner } side i outcome
      terminal).Accounted owners := by
  have hsound := h.sound.popped side
  have hnext : (s.app.worker side).next.1 = some (.job (.resume i outcome terminal)) := by
    rw [Worker.next, hqueue]
  rw [hnext] at hsound
  change (s.app.popped side).Sound (endingsOf (.job (.resume i outcome terminal))) at hsound
  have hmem : .job (.resume i outcome terminal) ∈ (s.app.worker side).queue :=
    hqueue ▸ List.mem_cons_self
  have howner := h.placed.queued side i outcome terminal hmem
  have hterminal : terminal = outcome.isTerminal := h.sound.honest side _ hmem
  have hplaced := h.placed.popped side
  have hcells : (s.app.popped side).cells = s.app.cells := cells_setWorker s.app side _
  have hrouter : (s.app.popped side).router = s.app.router := router_setWorker s.app side _
  set a := s.app.popped side
  rw [Scene.resume, Array.getD_eq_getD_getElem?]
  dsimp only
  cases hfound : a.cells[i]? with
  | none =>
    have hsize : a.cells.size ≤ i := Array.getElem?_eq_none_iff.mp hfound
    obtain rfl := hsound.not_terminal hsize
    have hnone : endingsOf (.job (.resume i outcome false)) = 0 := by
      ext k
      simp [endingsOf]
    have hpopped := h.popped hqueue hnone runner
    change Accounted owners
      (Scene.occupy { s with app := a.setCell i _, runner := runner } side .other [])
    rw [setCell_of_size_le hsize]
    exact hpopped.occupy hidle fun _ => List.not_mem_nil
  | some c =>
    have hquiet (busyWith : Bool) : c.stage ≠ .busy busyWith := by
      have hbusy := h.not_busy hidle howner busyWith
      rwa [stage, history, ← hcells, hfound] at hbusy
    have harrived := hsound.takeOut hterminal hfound hquiet
    have hplaced' : (a.setCell i (c.takeOut outcome terminal).2).Placed owners :=
      hplaced.setCell fun handler hslot => absurd hslot (slot_takeOut c outcome terminal handler)
    obtain ⟨-, -, hstage⟩ := (hsound.orderly i c hfound).faithful.takeOut outcome terminal
    rcases takeOut_cases c outcome terminal with
      ⟨handler, n, hslot, htaken, hhistory⟩ | ⟨hdropped, hhistory⟩
    · have hside := hplaced.handlers i c handler hfound hslot
      rw [howner] at hside
      rw [htaken] at hstage
      dsimp only [Option.getD_some]
      rw [htaken]
      exact h.call hidle harrived hplaced' hcells (by rw [hrouter]) hfound howner
        (Option.some.inj hside).symm hhistory hstage.2
    · rw [hdropped] at hstage
      dsimp only [Option.getD_some]
      rw [hdropped]
      exact h.dropped hidle harrived hplaced' hcells (by rw [hrouter]) hfound hhistory hstage.2

/-- A worker begins with its oldest task. -/
theorem Accounted.start (h : s.Accounted owners) {side : Side} (hidle : s.busy side = none)
    {task : Task Job} {tasks : List (Task Job)}
    (hqueue : (s.app.worker side).queue = task :: tasks) (runner : Runner) :
    (Scene.start { s with app := s.app.popped side, runner := runner } side task).Accounted
      owners := by
  cases task with
  | mark =>
    have hpopped := h.popped hqueue rfl runner
    exact hpopped.stay (hpopped.sound.counted side (.ok ()))
      (hpopped.placed.counted side (.ok ())) (cells_setWorker _ side _)
      (router_setWorker _ side _) runner
  | job job =>
    cases job with
    | resume i outcome terminal => exact h.resume hidle hqueue runner
    | arrival msg =>
      refine (h.popped hqueue rfl runner).occupy hidle fun i hi => ?_
      split at hi
      · cases List.mem_singleton.mp hi
      · cases hi
    | phase callback =>
      refine (h.popped hqueue rfl runner).occupy hidle fun i hi => ?_
      split at hi
      · cases List.mem_singleton.mp hi
      · cases hi
    | initExtension properties =>
      exact (h.popped hqueue rfl runner).occupy hidle fun _ => List.not_mem_nil
    | startExtension => exact (h.popped hqueue rfl runner).occupy hidle fun _ => List.not_mem_nil
    | completion completion =>
      exact (h.popped hqueue rfl runner).occupy hidle fun _ => List.not_mem_nil

/-- A worker is idle again. If it has called a handler, that is over. -/
theorem Accounted.release (h : s.Accounted owners) {side : Side} {business : Business}
    (hbusy : s.busy side = some business) {a : App} (hsound : a.Sound 0)
    (hplaced : a.Placed owners)
    (hover : ∀ k handler terminal, business = .call k handler terminal →
      ∀ busyWith, a.stage k ≠ .busy busyWith)
    (hothers : ∀ k, (∀ handler terminal, business ≠ .call k handler terminal) →
      a.stage k = s.app.stage k)
    (hheard : ∀ k outcome terminal, .arrival outcome terminal true ∈ a.history k →
      .arrival outcome terminal true ∈ s.app.history k)
    (htable : a.router.table = s.app.router.table) :
    Accounted owners { s with app := a, busy := Function.update s.busy side none } where
  sound := hsound
  placed := hplaced
  busy k terminal hstage := by
    have hne (handler : Handler) (terminal : Bool) : business ≠ .call k handler terminal :=
      fun heq => hover k handler terminal heq _ hstage
    obtain ⟨other, handler, hcall⟩ := h.busy k terminal ((hothers k hne).symm.trans hstage)
    have hother : other ≠ side := by
      rintro rfl
      rw [hbusy] at hcall
      exact hne handler terminal (Option.some.inj hcall)
    exact ⟨other, handler, (Function.update_of_ne hother _ _).trans hcall⟩
  calls other k handler terminal hcall := by
    change Function.update s.busy side none other = _ at hcall
    by_cases heq : other = side
    · rw [heq, Function.update_self] at hcall
      cases hcall
    · rw [Function.update_of_ne heq] at hcall
      obtain ⟨hstage, howner, hside⟩ := h.calls other k handler terminal hcall
      have hne (handler : Handler) (terminal : Bool) : business ≠ .call k handler terminal := by
        rintro rfl
        obtain ⟨-, howner', -⟩ := h.calls side k handler terminal hbusy
        rw [howner] at howner'
        exact heq (Option.some.inj howner')
      exact ⟨(hothers k hne).trans hstage, howner, hside⟩
  heard k outcome terminal howner hmem :=
    h.heard k outcome terminal howner (hheard k outcome terminal hmem)
  sent k hk := by
    change owners[k]? = some .tester ∧ k ∈ a.router.table.taken
    rw [htable]
    exact h.sent k hk

/-- A job ends, and a handler that was called is put back or dropped. -/
theorem Accounted.finish (h : s.Accounted owners) {side : Side} {business : Business}
    (hbusy : s.busy side = some business) (ended : Except Panic Unit) :
    Accounted owners
      { s with
        app := (s.app.ending business).counted side ended
        busy := Function.update s.busy side none } := by
  have hcounted (a : App) (k : Nat) : (a.counted side ended).history k = a.history k :=
    history_setWorker a side _ k
  have hrouter (a : App) : (a.counted side ended).router = a.router := router_setWorker a side _
  cases business with
  | other =>
    refine h.release hbusy (h.sound.counted side ended) (h.placed.counted side ended) nofun
      (fun k _ => congrArg Stage.after (hcounted s.app k)) (fun k outcome terminal hk => ?_) ?_
    · rwa [ending, hcounted] at hk
    · rw [hrouter]
      rfl
  | call i handler terminal =>
    obtain ⟨hstage, howner, hside⟩ := h.calls side i handler terminal hbusy
    obtain ⟨c, hfound, hc⟩ := exists_of_busy hstage
    have hgetD : s.app.cells.getD i { slot := .released } = c := by
      rw [Array.getD_eq_getD_getElem?, hfound]
      rfl
    obtain ⟨-, -, hafter⟩ := (h.sound.orderly i c hfound).faithful.putBack hc handler
    have hsound := h.sound.putBack hfound hc handler
    have hplaced : (s.app.setCell i (c.putBack terminal handler)).Placed owners :=
      h.placed.setCell fun other hslot => by rw [slot_putBack hslot, howner, hside]
    rw [ending, hgetD]
    refine h.release hbusy (hsound.counted side ended) (hplaced.counted side ended)
      (fun k other terminal' heq => ?_) (fun k hne => ?_) (fun k outcome terminal' hk => ?_) ?_
    · cases heq
      intro busyWith
      rw [stage, hcounted, ← stage, stage_setCell hfound, if_pos rfl, hafter]
      cases terminal <;> simp [Stage.afterCall]
    · have hik : i ≠ k := by
        rintro rfl
        exact hne handler terminal rfl
      rw [stage, hcounted, ← stage, stage_setCell hfound, if_neg hik]
    · rw [hcounted, history_setCell hfound] at hk
      split at hk
      · next heq =>
        subst heq
        rw [c.history_putBack, List.mem_append, List.mem_singleton] at hk
        rw [history_of_getElem? hfound]
        rcases hk with hk | hk
        · exact hk
        · cases hk
      · exact hk
    · rw [hrouter]
      rfl

end Acts

end Scene
end Switchboard.App
