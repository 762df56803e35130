import Switchboard.Proofs.Run.Embedding
/-!
# The phases of a run come in order

A run that returns has called its tester to start, to stop and to clean up, once each and in this
order, however its threads were interleaved and whatever its callbacks did. Before the stop every
command of the tester was ended, and after it the tester is called for nothing but its cleaning up.
All this is told of what the workers perform, and of every program that runs a tester to the end.
-/
namespace Switchboard.App

/-- What is performed in order. The tester is called to start, to stop and to clean up, once each.
Before it is called to stop, the handlers of all its commands were told how these have ended.
Afterwards no handler of the tester is called, and no message is handled by the tester. -/
structure InOrder (log : List Entry) (ps : List Performance) : Prop where
  phases : (ps.filterMap (·.opening? .tester)).filterMap (·.phase?) = [.start, .stop, .deinit]
  told : ∀ earlier p later phase, ps = earlier ++ p :: later →
    p.opening? .tester = some (.phase .stop phase) → ∀ i, .sent i ∈ log →
      ∃ q ∈ earlier, ∃ call, q.call? = some call ∧ call.cell = i ∧
        call.handler.side = .tester ∧ call.outcome.isTerminal = true
  silent : ∀ earlier p later phase, ps = earlier ++ p :: later →
    p.opening? .tester = some (.phase .stop phase) → ∀ q ∈ later,
      (∀ call, q.call? = some call → call.handler.side = .engine) ∧ q.message? .tester = none

namespace Scene

section InOrder

variable {owners : List Side} {s : Scene} {ps : List Performance}

/-- What is logged of the performances before and behind the one that calls the tester to stop. -/
theorem exists_split_of_stop
    (hlog : s.log.filter (·.isCallback) = ps.filterMap (·.logged?)) {earlier later : List Performance}
    {p : Performance} {phase : Phase} (hps : ps = earlier ++ p :: later)
    (hstop : p.opening? .tester = some (.phase .stop phase)) :
    ∃ before after, s.log = before ++ .phase .stop :: after ∧
      before.filter (·.isCallback) = earlier.filterMap (·.logged?) ∧
      after.filter (·.isCallback) = later.filterMap (·.logged?) := by
  have hentry : p.logged? = some (.phase .stop) := by
    have hphase := p.phase?_opening
    rw [hstop] at hphase
    obtain ⟨entry, hentry, heq⟩ := Option.bind_eq_some_iff.mp hphase.symm
    rw [hentry, Entry.phase?_eq_some_iff.mp heq]
  rw [hps, List.filterMap_append, List.filterMap_cons_some hentry] at hlog
  obtain ⟨before, rest, hsplit, hbefore, hrest⟩ := List.filter_eq_append_iff.mp hlog
  obtain ⟨between, after, rfl, hbetween, -, hafter⟩ := List.filter_eq_cons_iff.mp hrest
  refine ⟨before ++ between, after, by rw [hsplit, List.append_assoc], ?_, hafter⟩
  rw [List.filter_append, hbefore, List.filter_eq_nil_iff.mpr hbetween, List.append_nil]

theorem Ordered.phases_of_returned (h : s.Ordered owners) (hreturned : s.runner = .returned) :
    s.log.filterMap Entry.phase? = [.start, .stop, .deinit] := by
  have hclosed : s.runner.closed = true := by
    rw [hreturned]
    rfl
  rw [h.phases_log hclosed, hreturned]
  rfl

/-- What is performed in a run is in order when what is logged of it is. -/
theorem Ordered.inOrder (h : s.Ordered owners) (hclosed : s.runner.closed = true)
    (hphases : s.log.filterMap Entry.phase? = [.start, .stop, .deinit])
    (hlog : s.log.filter (·.isCallback) = ps.filterMap (·.logged?)) : InOrder s.log ps where
  phases := by
    have hcallback : (fun entry : Entry => if entry.isCallback then entry.phase? else none) =
        Entry.phase? := by
      ext1 entry
      cases entry with
      | sent i => rfl
      | handler i outcome => rfl
      | message msg => rfl
      | phase callback => rfl
    calc (ps.filterMap (·.opening? .tester)).filterMap (·.phase?)
      _ = ps.filterMap fun p => p.logged?.bind (·.phase?) := by
        rw [List.filterMap_filterMap]
        exact List.filterMap_congr fun p _ => p.phase?_opening
      _ = (ps.filterMap (·.logged?)).filterMap Entry.phase? := List.filterMap_filterMap.symm
      _ = s.log.filterMap Entry.phase? := by rw [← hlog, List.filterMap_filter, hcallback]
      _ = [.start, .stop, .deinit] := hphases
  told earlier p later phase hps hstop i hi := by
    obtain ⟨before, after, hsplit, hbefore, -⟩ := exists_split_of_stop hlog hps hstop
    have hn : s.log[before.length]? = some (.phase .stop) := by
      rw [hsplit, List.getElem?_append_right (Nat.le_refl _), Nat.sub_self]
      rfl
    obtain ⟨outcome, hterminal, hhandler⟩ := h.settled before.length hn i hi
    rw [hsplit, List.take_left] at hhandler
    have hmem : .handler i outcome ∈ earlier.filterMap (·.logged?) :=
      hbefore ▸ List.mem_filter.mpr ⟨hhandler, rfl⟩
    obtain ⟨q, hq, hentry⟩ := List.mem_filterMap.mp hmem
    obtain ⟨call, hcall, hcell, houtcome, hside⟩ := Performance.exists_call_of_logged? hentry
    exact ⟨q, hq, call, hcall, hcell, hside, houtcome ▸ hterminal⟩
  silent earlier p later phase hps hstop q hq := by
    obtain ⟨before, after, hsplit, -, hafter⟩ := exists_split_of_stop hlog hps hstop
    have hnot {entry : Entry} (hentry : q.logged? = some entry) :
        entry.occasion? ≠ some .traffic := by
      have hmem : entry ∈ later.filterMap (·.logged?) := List.mem_filterMap.mpr ⟨q, hq, hentry⟩
      rw [← hafter] at hmem
      exact h.silent_log hclosed hsplit (List.mem_filter.mp hmem).1
    constructor
    · intro call hcall
      cases hside : call.handler.side with
      | engine => rfl
      | tester => exact absurd rfl (hnot (Performance.logged?_of_call? hcall hside))
    · cases hmessage : q.message? .tester with
      | none => rfl
      | some msg => exact absurd rfl (hnot (Performance.logged?_of_message? hmessage))

end InOrder

section Runs

variable {config : Config} {name : Option String} {properties : String} {extension : Extension}
  {built : App}

/-- What is logged in a run of a new application is what is performed in it. -/
theorem log_run {acts : List Act} {s : Scene} (hrun : (ofApp built).run acts = some s) :
    s.log.filter (·.isCallback) =
      ((ofApp built).performances (acts.map .act)).filterMap (·.logged?) :=
  log_course ((course_map_act _ acts).trans hrun)

theorem inOrder_of_run (hbuilt : build config name properties extension = .ok built)
    {acts : List Act} {s : Scene} (hrun : (ofApp built).run acts = some s)
    (hreturned : s.runner = .returned) :
    InOrder s.log ((ofApp built).performances (acts.map .act)) := by
  obtain ⟨owners, hs⟩ := (ordered_ofApp hbuilt).run hrun
  exact hs.inOrder (hreturned ▸ rfl) (hs.phases_of_returned hreturned) (log_run hrun)

/-- A run that returns has called its tester to start, to stop and to clean up, once each and in
this order. When the tester was called to stop, its worker was idle and every command that it has
ever sent was ended, which its handler had been told. After that no handler of the tester is called
and no message is handled by the tester. What is logged of this is what the workers perform, and
every performance is carried out. A program that does whatever it likes with a new application and
then runs a tester to the end makes one of these runs, and shows what is performed in it. -/
theorem phases_in_order (hbuilt : build config name properties extension = .ok built)
    {acts : List Act} {s : Scene} (hrun : (ofApp built).run acts = some s)
    (hreturned : s.runner = .returned) :
    s.log.filterMap Entry.phase? = [.start, .stop, .deinit] ∧
      (∃ earlier later before after, acts = earlier ++ .take .tester :: later ∧
        (ofApp built).run earlier = some before ∧ before.busy .tester = none ∧
        s.log = before.log ++ .phase .stop :: after ∧
        (∀ i, .sent i ∈ s.log →
          ∃ outcome, outcome.isTerminal = true ∧ .handler i outcome ∈ before.log) ∧
        (∀ i outcome, .handler i outcome ∉ after) ∧ ∀ msg, .message msg ∉ after) ∧
      (s.log.filter (·.isCallback) =
          ((ofApp built).performances (acts.map .act)).filterMap (·.logged?) ∧
        InOrder s.log ((ofApp built).performances (acts.map .act)) ∧
        ∀ p ∈ (ofApp built).performances (acts.map .act), p.CarriedOut) ∧
      ∀ (α : Type) (p : Program α), Operates p → ∀ tester report,
        ((Program.runToEnd tester).run (p.run built).2).1 = .ok report →
        ∃ acts' s', (ofApp built).run acts' = some s' ∧ s'.runner = .returned ∧
          s'.app = ((Program.runToEnd tester).run (p.run built).2).2 ∧
          InOrder s'.log ((ofApp built).performances (acts'.map .act)) ∧
          Chronicles ((ofApp built).performances (acts'.map .act)) (p.run built).2
            ((Program.runToEnd tester).run (p.run built).2).2 := by
  have hnew := ordered_ofApp hbuilt
  obtain ⟨owners, hs⟩ := hnew.run hrun
  have hclosed : s.runner.closed = true := by
    rw [hreturned]
    rfl
  have hphases := hs.phases_of_returned hreturned
  refine ⟨hphases, ?_, ⟨log_run hrun, inOrder_of_run hbuilt hrun hreturned,
    fun p _ => p.carriedOut⟩, ?_⟩
  · have hstop : .stop ∈ s.log.filterMap Entry.phase? := by
      rw [hphases]
      decide
    obtain ⟨entry, hmem, hentry⟩ := List.mem_filterMap.mp hstop
    obtain rfl := Entry.phase?_eq_some_iff.mp hentry
    obtain ⟨n, hn⟩ := List.mem_iff_getElem?.mp hmem
    obtain ⟨earlier, later, before, hacts, hearlier, hidle, hbefore⟩ :=
      hnew.exists_take hrun (Nat.zero_le n) hn
    have hsplit : s.log = before.log ++ .phase .stop :: s.log.drop (n + 1) := by
      obtain ⟨hlt, hget⟩ := List.getElem?_eq_some_iff.mp hn
      rw [hbefore, ← hget, List.getElem_cons_drop, List.take_append_drop]
    refine ⟨earlier, later, before, s.log.drop (n + 1), hacts, hearlier, hidle, hsplit, ?_, ?_, ?_⟩
    · rw [hbefore]
      exact hs.settled n hn
    · exact fun i outcome hlater => hs.silent_log hclosed hsplit hlater rfl
    · exact fun msg hlater => hs.silent_log hclosed hsplit hlater rfl
  · intro α p hp tester report hreport
    obtain ⟨acts', more, s₁, s', hprepared, hnone, -, hmore, hreturned', happ, hchronicles⟩ :=
      exists_run_of_runToEnd hbuilt hp hreport
    have hrun' : (ofApp built).run (acts' ++ more) = some s' := by
      rw [run_append, hprepared]
      exact hmore
    have hperformances : (ofApp built).performances ((acts' ++ more).map .act) =
        s₁.performances (more.map .act) := by
      rw [List.map_append, performances_append ((course_map_act _ acts').trans hprepared), hnone,
        List.nil_append]
    exact ⟨acts' ++ more, s', hrun', hreturned', happ, inOrder_of_run hbuilt hrun' hreturned',
      hperformances ▸ hchronicles⟩

/-- A run in which everything is asked for at once: when the tester is called to start, it sends a
ping, acknowledges the start, and stops. The extension gets the ping when the run is over. -/
def impatient : List Act :=
  [.call {}, .proceed, .proceed,
    .take .tester,
    .operate (.sendCmd (.scripted .tester "ping" [] [] none) { name := "ping" } false),
    .operate (.acknowledge .start), .operate .stop, .finish .tester (.ok ()),
    .proceed, .proceed,
    .take .tester, .finish .tester (.ok ()),
    .take .tester, .operate (.acknowledge .stop), .finish .tester (.ok ()), .proceed,
    .take .tester, .operate (.acknowledge .deinit), .finish .tester (.ok ()), .proceed,
    .proceed, .take .tester,
    .proceed, .take .engine, .finish .engine (.ok ()), .take .engine, .finish .engine (.ok ()),
    .take .engine, .finish .engine (.ok ()), .take .engine,
    .proceed, .proceed, .proceed, .proceed]

/-- The ping was cancelled before the tester was called to stop. -/
theorem impatient_inOrder :
    ∃ s, (ofApp responding).run impatient = some s ∧ s.runner = .returned ∧
      s.log = [.phase .start, .sent 0, .handler 0 (.error (.cancelled "test stopped")),
        .phase .stop, .phase .deinit] ∧
      s.log.filterMap Entry.phase? = [.start, .stop, .deinit] := by
  have hbuilt : build {} (some "echo") "" .responder = .ok responding := rfl
  have hend : ((ofApp responding).run impatient).map (fun s => (s.runner, s.log)) =
      some (.returned, [.phase .start, .sent 0, .handler 0 (.error (.cancelled "test stopped")),
        .phase .stop, .phase .deinit]) := by
    decide +kernel
  obtain ⟨s, hrun, heq⟩ := Option.map_eq_some_iff.mp hend
  obtain ⟨hreturned, hlog⟩ := Prod.mk.inj heq
  exact ⟨s, hrun, hreturned, hlog, (phases_in_order hbuilt hrun hreturned).1⟩

end Runs

end Scene
end Switchboard.App
