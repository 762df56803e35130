import Switchboard.Proofs.App.Teardown
import Switchboard.Proofs.Run.Runner
/-!
# Phases in the log of a run

A phase is logged when the tester's worker, which is idle, begins with it. When that worker was shut
down, all phases that were scheduled have been logged, in their order, and no traffic is logged
behind the stop.
-/
namespace Switchboard.App

/-- The phase whose beginning was logged. -/
def Entry.phase? : Entry → Option PhaseCallback
  | phase callback => some callback
  | sent _ | handler .. | message _ => none

theorem Entry.phase?_eq_some_iff {entry : Entry} {callback : PhaseCallback} :
    entry.phase? = some callback ↔ entry = .phase callback := by
  cases entry with
  | phase other =>
    rw [Entry.phase?, Option.some.injEq, Entry.phase.injEq]
  | sent i => exact ⟨nofun, nofun⟩
  | handler i outcome => exact ⟨nofun, nofun⟩
  | message msg => exact ⟨nofun, nofun⟩

/-- Operations log nothing but commands. -/
theorem Operation.eq_sent_of_mem {op : Operation} {a : App} {answer : op.Answer} {entry : Entry}
    (h : entry ∈ op.entries a answer) : ∃ i, entry = .sent i := by
  cases op with
  | sendCmd handler cmd streaming =>
    cases answer with
    | error e => cases h
    | ok id =>
      rw [Operation.entries] at h
      split at h
      · exact ⟨_, List.mem_singleton.mp h⟩
      · cases h
  | send p msg => cases h
  | returnResult result => cases h
  | complete completion => cases h
  | stop => cases h
  | await => cases h
  | acknowledge callback => cases h

namespace Scene

section Logs

variable {owners : List Side} {s s' : Scene} {callback : PhaseCallback}

/-- A runner that goes on logs nothing. -/
theorem log_proceed (h : s.proceed = some s') : s'.log = s.log := by
  cases goesOn_of_proceed h <;> rfl

/-- Acts add to the log. A phase is logged when the tester's worker, which is idle, begins with
it. -/
theorem Ordered.log_perform (h : s.Ordered owners) {act : Act} (hact : s.perform act = some s') :
    ∃ entries, s'.log = s.log ++ entries ∧ ∀ k callback, entries[k]? = some (.phase callback) →
      k = 0 ∧ act = .take .tester ∧ s.busy .tester = none := by
  cases act with
  | operate op =>
    cases hact
    refine ⟨_, rfl, fun k callback hk => ?_⟩
    obtain ⟨i, heq⟩ := Operation.eq_sent_of_mem (List.mem_of_getElem? hk)
    cases heq
  | note notes =>
    cases hact
    exact ⟨[], (List.append_nil _).symm, nofun⟩
  | take side =>
    obtain ⟨hidle, task, tasks, hqueue, rfl⟩ := take_eq_some hact
    obtain ⟨entries, hlog, hentries⟩ := log_start
      { s with app := s.app.popped side, runner := s.runner.countDown side } side task
    refine ⟨entries, hlog, fun k callback hk => ?_⟩
    rcases hentries with rfl | ⟨entry, occasion, rfl, hentry, hoccasion⟩
    · cases hk
    · cases k with
      | succ k => cases hk
      | zero =>
        cases hk
        cases hentry
        obtain rfl := eq_of_occasionOf hoccasion
        cases side with
        | tester => exact ⟨rfl, rfl, hidle⟩
        | engine => exact absurd (hqueue ▸ List.mem_cons_self) (h.inLine.engine callback)
  | finish side ended =>
    obtain ⟨business, -, rfl⟩ := Option.map_eq_some_iff.mp hact
    exact ⟨[], (List.append_nil _).symm, nofun⟩
  | call tester =>
    obtain ⟨-, rfl⟩ := call_eq_some hact
    exact ⟨[], (List.append_nil _).symm, nofun⟩
  | proceed => exact ⟨[], (log_proceed hact).trans (List.append_nil _).symm, nofun⟩

theorem Ordered.log_run (h : s.Ordered owners) {acts : List Act} (hrun : s.run acts = some s') :
    s.log <+: s'.log := by
  induction acts generalizing s owners with
  | nil =>
    cases hrun
    exact List.prefix_refl _
  | cons act acts ih =>
    obtain ⟨next, hact, hrest⟩ := Option.bind_eq_some_iff.mp hrun
    obtain ⟨entries, hlog, -⟩ := h.log_perform hact
    obtain ⟨owners', hnext⟩ := h.perform hact
    exact (hlog ▸ List.prefix_append _ _).trans (ih hnext hrest)

/-- For a phase that was logged the tester's worker, which was idle, has taken a task. -/
theorem Ordered.exists_take (h : s.Ordered owners) {acts : List Act}
    (hrun : s.run acts = some s') {n : Nat} (hn : s.log.length ≤ n)
    (hphase : s'.log[n]? = some (.phase callback)) :
    ∃ earlier later before, acts = earlier ++ .take .tester :: later ∧
      s.run earlier = some before ∧ before.busy .tester = none ∧ before.log = s'.log.take n := by
  induction acts generalizing s owners with
  | nil =>
    cases hrun
    rw [List.getElem?_eq_none hn] at hphase
    cases hphase
  | cons act acts ih =>
    obtain ⟨next, hact, hrest⟩ := Option.bind_eq_some_iff.mp hrun
    obtain ⟨entries, hlog, hentries⟩ := h.log_perform hact
    obtain ⟨owners', hnext⟩ := h.perform hact
    rcases Nat.lt_or_ge n next.log.length with hlt | hge
    · obtain ⟨more, hmore⟩ := hnext.log_run hrest
      rw [← hmore, List.getElem?_append_left hlt, hlog, List.getElem?_append_right hn] at hphase
      obtain ⟨hfirst, rfl, hidle⟩ := hentries _ _ hphase
      have heq : n = s.log.length := Nat.le_antisymm (Nat.sub_eq_zero_iff_le.mp hfirst) hn
      refine ⟨[], acts, s, rfl, rfl, hidle, ?_⟩
      rw [← hmore, hlog, List.append_assoc, heq, List.take_left]
    · obtain ⟨earlier, later, before, rfl, hearlier, hbefore⟩ := ih hnext hrest hge
      refine ⟨act :: earlier, later, before, rfl, ?_, hbefore⟩
      rw [Scene.run, hact]
      exact hearlier

/-- When the tester's worker was shut down and has run all its tasks, everything that was in the
line was logged. -/
theorem Ordered.timeline_of_closed (h : s.Ordered owners) (hclosed : s.runner.closed = true) :
    s.timeline = s.log.filterMap Entry.occasion? := by
  rw [timeline, h.inPhase.emptied hclosed]
  exact List.append_nil _

theorem Ordered.phases_log (h : s.Ordered owners) (hclosed : s.runner.closed = true) :
    s.log.filterMap Entry.phase? = s.runner.scheduled := by
  have hsame : (fun entry : Entry => entry.occasion?.bind Occasion.phase?) = Entry.phase? := by
    ext1 entry
    cases entry with
    | sent i => rfl
    | handler i outcome => rfl
    | message msg => rfl
    | phase callback => rfl
  rw [← h.inLine.phases, h.timeline_of_closed hclosed, List.filterMap_filterMap, hsame]

/-- Behind the stop the tester was called for no traffic. -/
theorem Ordered.silent_log (h : s.Ordered owners) (hclosed : s.runner.closed = true)
    {before after : List Entry} (hlog : s.log = before ++ .phase .stop :: after) {entry : Entry}
    (hafter : entry ∈ after) : entry.occasion? ≠ some .traffic := by
  intro htraffic
  have hline := h.inLine.silent
  rw [h.timeline_of_closed hclosed, hlog, List.filterMap_append, List.pairwise_append] at hline
  obtain ⟨-, hbehind, -⟩ := hline
  exact (List.pairwise_cons.mp hbehind).1 .traffic
    (List.mem_filterMap.mpr ⟨_, hafter, htraffic⟩) rfl rfl

end Logs

section Runs

variable {config : Config} {name : Option String} {properties : String} {extension : Extension}
  {built : App}

/-- In a new application nothing waits, and what is queued is no delivery. -/
theorem placed_ofParts (config : Config) (name : String) (properties : Json)
    (extension : Extension) : (ofParts config name properties extension).Placed [] where
  sharded := PendingTable.sharded_ofShards _
  shut side hshut := by
    cases side with
    | tester => cases hshut
    | engine => cases hshut
  size := rfl
  handlers i c handler hfound := by simp [ofParts] at hfound
  entries e he := by simp [ofParts, PendingTable.ofShards, PendingTable.entries] at he
  queued side i outcome terminal hmem := by
    cases side with
    | tester => cases hmem
    | engine => cases List.mem_singleton.mp hmem

/-- A new application is in order. -/
theorem ordered_ofApp (hbuilt : build config name properties extension = .ok built) :
    (ofApp built).Ordered [] := by
  have hsteady := steady_of_build hbuilt
  obtain ⟨name, properties, rfl⟩ := eq_ofParts_of_build hbuilt
  constructor
  · constructor
    · exact hsteady.sound
    · exact placed_ofParts config name properties extension
    · exact fun i terminal hbusy => absurd hbusy (hsteady.quiet i terminal)
    · nofun
    · nofun
    · nofun
  · constructor
    · exact ⟨rfl, rfl, fun hrank => absurd hrank (Nat.not_succ_le_zero 1)⟩
    · exact Nat.zero_le _
    · nofun
    · rfl
    · nofun
  · constructor
    · rfl
    · exact List.Pairwise.nil
    · intro callback hmem
      cases List.mem_singleton.mp hmem
  · nofun

end Runs

end Scene
end Switchboard.App
