import Switchboard.Proofs.App.Chronicle
/-!
# Every command is told its end

When an application has been torn down, its chronicle has one call of the handler of each command
that was sent in which the handler is told how the command has ended.
-/
namespace Switchboard.App

/-- The calls in which the handler of a command is told its end. -/
def lastCalls (a : App) (turns : List Turn) (i : Nat) : List Call :=
  ((a.performances turns).filterMap (·.call?)).filter fun call =>
    call.cell = i ∧ call.outcome.isTerminal

section LastCalls

/-- What is recorded of a call. -/
theorem Performance.visits_of_call? {p : Performance} {call : Call} (h : p.call? = some call)
    (i : Nat) : p.visits i = if call.cell = i then visiting call.outcome call.terminal true
      else [] := by
  have hwaits := handler?_of_call? h
  obtain ⟨a, side, job⟩ := p
  cases job with
  | resume k outcome terminal =>
    dsimp only [visits]
    rw [h]
    obtain ⟨⟨handler, n⟩, -, rfl⟩ := Option.map_eq_some_iff.mp h
    obtain ⟨c, hfound, -⟩ := Option.bind_eq_some_iff.mp hwaits
    by_cases hcell : k = i
    · subst hcell
      rw [if_pos ⟨rfl, lt_size_of_getElem? hfound⟩, if_pos rfl]
      rfl
    · rw [if_neg fun hboth => hcell hboth.1, if_neg hcell]
  | _ => cases h

/-- Without a call nobody is told anything. -/
theorem Performance.isLastCall_of_none {p : Performance} (h : p.call? = none) {i : Nat}
    {visit : Visit} (hvisit : visit ∈ p.visits i) : ¬visit.isLastCall = true := by
  obtain ⟨a, side, job⟩ := p
  cases job with
  | resume k outcome terminal =>
    dsimp only [visits] at hvisit
    rw [h] at hvisit
    split at hvisit
    · obtain rfl := List.mem_singleton.mp hvisit
      exact Bool.false_ne_true
    · exact absurd hvisit List.not_mem_nil
  | _ => exact absurd hvisit List.not_mem_nil

/-- A handler is told the end of a command just when that is what is recorded. -/
theorem Performance.countP_visits (p : Performance) (i : Nat) :
    (p.visits i).countP Visit.isLastCall =
      (p.call?.toList.filter fun call => call.cell = i ∧ call.outcome.isTerminal).length := by
  cases hcall : p.call? with
  | none => exact List.countP_eq_zero.mpr fun visit hvisit => p.isLastCall_of_none hcall hvisit
  | some call =>
    rw [p.visits_of_call? hcall i]
    by_cases hcell : call.cell = i
    · rw [if_pos hcell]
      cases hterminal : call.outcome.isTerminal
      · simp [visiting, Visit.isLastCall, hterminal]
      · simp [visiting, Visit.isLastCall, hterminal, hcell]
    · simp [hcell]

theorem countP_flatMap_visits (ps : List Performance) (i : Nat) :
    (ps.flatMap (·.visits i)).countP Visit.isLastCall =
      ((ps.filterMap (·.call?)).filter fun call =>
        call.cell = i ∧ call.outcome.isTerminal).length := by
  induction ps with
  | nil => rfl
  | cons p ps ih =>
    rw [List.flatMap_cons, List.countP_append, ih, p.countP_visits, ← List.length_append,
      ← List.filter_append, List.filterMap_cons]
    cases p.call? with
    | none => rfl
    | some call => rfl

/-- A handler that was given a cell is still there when the rest shows nothing. -/
theorem handler?_newCell_bind {α : Type} {rest : Nat → Program α} (hrest : ∀ i, Mutes α (rest i))
    (a : App) (handler : Handler) :
    ((Program.newCell handler >>= rest).run a).2.handler? a.cells.size = some handler := by
  set made : App := { a with cells := a.cells.push (.ofHandler handler) }
  have hmade : a.cells.size < made.cells.size := by
    rw [Array.size_push]
    exact Nat.lt_succ_self _
  refine ((hrest a.cells.size made).toRespects.handler? hmade).trans ?_
  rw [handler?, Array.getElem?_push_size]
  rfl

/-- The continuation of a command waits with the handler of the command when the send is over. -/
theorem handler?_sendCmd (a : App) (handler : Handler) (cmd : Cmd) (streaming : Bool) :
    ((Program.sendCmd handler cmd streaming).run a).2.handler? a.cells.size = some handler := by
  rw [Program.sendCmd]
  refine handler?_newCell_bind (fun i => ?_) a handler
  apply composes_mutes.bind (makings_mutes.sendCmdFrom handler.side i cmd streaming)
  intro answer
  cases answer with
  | ok id => exact makings_mutes.answer (makings_mutes.remember i)
  | error e => exact composes_mutes.pure _

theorem history_of_build {config : Config} {name : Option String} {properties : String}
    {extension : Extension} {built : App}
    (hbuilt : build config name properties extension = .ok built) (i : Nat) :
    built.history i = [] := by
  obtain ⟨name, properties, rfl⟩ := eq_ofParts_of_build hbuilt
  rfl

/-- However an application that was built has come to be where it is, and however it ends, it is
torn down afterwards. The jobs that its workers ran make up its whole chronicle; each was carried
out, and one call for each command that was sent told the handler how the command has ended. The
handler of a command is the one that the command is sent with. From the end on no command can be
sent, nothing happens at the continuations of the commands that were sent before, and the handlers
of commands that are refused are never called. -/
theorem tornDown_of_build {config : Config} {name : Option String} {properties : String}
    {extension : Extension} {built a : App}
    (hbuilt : build config name properties extension = .ok built) (ha : Reached built a)
    (e : Ending) :
    (a.ended e).TornDown ∧
    (∃ turns, a.ended e = turns.foldl turned built ∧
      (∀ earlier later, turns = earlier ++ later →
        Chronicles ((earlier.foldl turned built).performances later)
          (earlier.foldl turned built) (a.ended e)) ∧
      (∀ p ∈ built.performances turns, p.CarriedOut) ∧
      ∀ i ∈ (a.ended e).sent, ∃ call, built.lastCalls turns i = [call]) ∧
    (∀ (b : App) handler cmd streaming,
      ((Program.sendCmd handler cmd streaming).run b).2.handler? b.cells.size = some handler) ∧
    ∀ b, Reached (a.ended e) b →
      b.TornDown ∧ b.sent = (a.ended e).sent ∧ (∀ i, b.history i = (a.ended e).history i) ∧
        ∀ handler cmd streaming,
          (∃ fault, ((Program.sendCmd handler cmd streaming).run b).1 = .error fault) ∧
            ∀ c, Reached ((Program.sendCmd handler cmd streaming).run b).2 c →
              c.history b.cells.size = [] := by
  have hreached := ha.leads (steady_of_build hbuilt)
  obtain ⟨hended, hover⟩ := ends_ending e a hreached.steady
  have htorn := hended.steady.tornDown hover
  refine ⟨htorn, ?_, handler?_sendCmd, ?_⟩
  · obtain ⟨turns, hturns⟩ := ha.exists_turns_ended e
    refine ⟨turns, hturns, ?_, fun p _ => p.carriedOut, fun i hi => ?_⟩
    · rintro earlier later rfl
      rw [hturns, List.foldl_append]
      exact chronicles_turns _ later
    · have hhistory := (chronicles_turns built turns).history i
      rw [← hturns, history_of_build hbuilt, List.nil_append] at hhistory
      apply List.length_eq_one_iff.mp
      calc (built.lastCalls turns i).length
        _ = ((built.performances turns).flatMap (·.visits i)).countP Visit.isLastCall :=
          (countP_flatMap_visits _ i).symm
        _ = ((a.ended e).history i).countP Visit.isLastCall := by rw [hhistory]
        _ = 1 := htorn.once i hi
  · intro b hb
    have hlater := hb.leads hended.steady
    have hover' := hlater.wanes.stillOver hover
    refine ⟨hlater.steady.tornDown hover', hlater.wanes.final hover.closing.table,
      hlater.history hover, ?_⟩
    intro handler cmd streaming
    constructor
    · exact run_sendCmd_eq_error hover'.closing.closed handler cmd streaming
    · intro c hc
      have hsend := (keeps_sendCmd handler cmd streaming).stays b hlater.steady
      have hafter := hc.leads hsend.steady
      calc c.history b.cells.size
        _ = ((Program.sendCmd handler cmd streaming).run b).2.history b.cells.size :=
          hafter.history (hsend.wanes.stillOver hover') _
        _ = b.history b.cells.size := hsend.history hover' _
        _ = [] := history_of_size_le (Nat.le_refl _)

/-- A ping is sent, and a command to a place that does not exist. -/
def pinged : App :=
  (responding.after (.step (.act (.sendCmd { name := "ping" } "ping" false [] [])))).after
    (.step (.act (.sendCmd { name := "ping", dest := some (.extension "nobody") } "lost" true
      [] [])))

/-- Both commands were sent. The drop ends them, and their handlers are told. -/
theorem pinged_tornDown :
    build {} (some "echo") "" .responder = .ok responding ∧ Reached responding pinged ∧
      pinged.sent = [0, 1] ∧ (pinged.ended .drop).TornDown ∧
      ∃ turns, pinged.ended .drop = turns.foldl turned responding ∧
        ∀ i ∈ (pinged.ended .drop).sent, ∃ call, responding.lastCalls turns i = [call] := by
  have hbuilt : build {} (some "echo") "" .responder = .ok responding := rfl
  have hreached : Reached responding pinged := .move _ (.move _ .here)
  obtain ⟨htorn, ⟨turns, hturns, -, -, hcalls⟩, -⟩ := tornDown_of_build hbuilt hreached .drop
  exact ⟨hbuilt, hreached, rfl, htorn, turns, hturns, hcalls⟩

end LastCalls

end Switchboard.App
