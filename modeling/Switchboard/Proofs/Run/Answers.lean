import Switchboard.Proofs.Run.Replies
/-!
# What the extension answers

Every command that the extension is told gets one answer, and nothing else: as long as it is not
given, the extension has the command in its queue or the answer in its plan; from then on it is
queued for the continuation of the command, or has arrived there.
-/
namespace Switchboard.App

namespace Scene

/-- What a side gets called with, and what it has queued. -/
theorem inbox_undergo {s s' : Scene} {deed : Deed} (hdeed : s.undergo deed = some s') (side : Side) :
    (deed.taken s side).filterMap arrivalOf ++ s'.app.inbox side =
      s.app.inbox side ++ deed.handed s side := by
  obtain ⟨more, hqueue, hhanded, -⟩ := undergo_queue hdeed side
  rw [inbox, inbox, ← List.filterMap_append, hqueue, List.filterMap_append, hhanded]

end Scene

/-- Only an operation returns a result. -/
theorem Deed.eq_of_returned {deed : Deed} {result : CmdResult} (h : deed.returned? = some result) :
    deed = .act (.operate (.returnResult result)) := by
  cases deed with
  | giveUp => cases h
  | act act =>
    cases act with
    | operate op =>
      cases op with
      | returnResult => exact congrArg _ (congrArg _ (congrArg _ (Option.some.inj h)))
      | sendCmd | send | complete | stop | await | acknowledge => cases h
    | note | take | finish | call | proceed => cases h

/-- All that a continuation gets is one result, which is final and calls the handler. -/
structure Gets (a : App) (k : Nat) (result : CmdResult) : Prop where
  arrived : ∀ visit ∈ a.history k, visit = .returned ∨ visit = .arrival (.ok result) true true
  queued : ∀ side outcome terminal, .job (.resume k outcome terminal) ∈ (a.worker side).queue →
    outcome = .ok result ∧ terminal = true

namespace Parley

/-- The extension is yet to answer a command: it has not come to it, or plans to answer it. -/
def Owes (p : Parley) (cmd : Cmd) : Prop :=
  .cmd cmd ∈ p.scene.app.inbox .engine ∨
    .returnResult (.answering (Responder.verdictOn cmd) cmd) ∈ p.plan

/-- The state of a command that the extension was told under an id, and that was sent for a
continuation: the continuation gets its answer only, and waits only as long as that is owed. -/
structure Pledged (p : Parley) (k : Nat) (cmd : Cmd) (id : RequestId) : Prop where
  requestId : cmd.requestId = some id
  taken : k ∈ p.scene.app.router.table.taken
  waits : ∀ e ∈ p.scene.app.router.table.entries, e.1 = id ↔ e.2.continuation = k
  gets : p.scene.app.Gets k (.answering (Responder.verdictOn cmd) cmd)
  owes : ∀ e ∈ p.scene.app.router.table.entries, e.1 = id → p.Owes cmd

section Pledged

variable {extension : String} {properties : Json} {p : Parley} {s : Scene} {deed : Deed}
  {plan : List Operation} {said : List Message} {k : Nat} {cmd : Cmd} {id : RequestId}

/-- Whoever returns a result for a command that the extension was told, it is the answer. -/
theorem Standing.eq_of_returned (h : p.Standing extension properties) (hdistinct : p.Distinct)
    (hdoes : p.Does deed plan said) (htold : (k, .cmd cmd) ∈ p.told) (hid : cmd.requestId = some id)
    {result : CmdResult} (hreturned : deed.returned? = some result)
    (hresult : result.requestId = some id) : result = .answering (Responder.verdictOn cmd) cmd := by
  obtain rfl := Deed.eq_of_returned hreturned
  generalize hdeed : Deed.act (.operate (.returnResult result)) = deed at hdoes
  cases hdoes with
  | other hallows =>
    -- nobody else returns one, for the tester was told nothing of the kind
    subst hdeed
    rw [allows, hresult, Option.all_some, Bool.or_eq_true] at hallows
    rcases hallows with hnot | hgot
    · have hne := of_decide_eq_true (List.all_eq_true.mp hnot _ htold)
      exact absurd hid hne
    · obtain ⟨msg, hmsg, hbears⟩ := List.any_eq_true.mp hgot
      exact absurd (of_decide_eq_true hbears) (hdistinct.apart _ htold msg hmsg id hid)
  | @reply op plan hplan =>
    have hplanned := h.planned op (hplan ▸ List.mem_cons_self)
    cases hplanned with
    | @answer k' cmd' htold' =>
      cases hdeed
      cases hdistinct.eq_of_requestId htold htold' hid hresult
      rfl
    | @say msg hmsg => cases msg <;> cases hdeed

/-- What the extension owes it still owes when something else has happened than the return of it. -/
theorem Owes.after (h : p.Owes cmd) (hdoes : p.Does deed plan said)
    (hdeed : p.scene.undergo deed = some s)
    (hother : deed.returned? ≠ some (.answering (Responder.verdictOn cmd) cmd)) :
    (p.after deed plan said s).Owes cmd := by
  rcases h with hqueued | hplanned
  · have hmem : .cmd cmd ∈ (deed.taken p.scene .engine).filterMap arrivalOf ++ s.app.inbox .engine :=
      Scene.inbox_undergo hdeed .engine ▸ List.mem_append_left _ hqueued
    rcases List.mem_append.mp hmem with htaken | hleft
    · -- the extension comes to the command and plans its answer
      rw [← filterMap_message] at htaken
      obtain ⟨cue, hcue, hmsg⟩ := List.mem_filterMap.mp htaken
      refine Or.inr (List.mem_append_right _ (List.mem_flatMap.mpr ⟨cue, hcue, ?_⟩))
      cases cue with
      | init | start => cases hmsg
      | message msg =>
        cases hmsg
        exact List.mem_append_left _ (List.mem_singleton_self _)
    · refine Or.inl ?_
      rw [scene_after]
      exact hleft
  · cases hdoes with
    | other => exact Or.inr (List.mem_append_left _ hplanned)
    | reply hplan =>
      rw [hplan] at hplanned
      rcases List.mem_cons.mp hplanned with rfl | hlater
      · exact absurd rfl hother
      · exact Or.inr (List.mem_append_left _ hlater)

/-- What holds of a command holds on. -/
theorem Pledged.after (h : p.Pledged k cmd id) (hstanding : p.Standing extension properties)
    (hdistinct : p.Distinct) (htold : (k, .cmd cmd) ∈ p.told) (hdoes : p.Does deed plan said)
    (hdeed : p.scene.undergo deed = some s) (hopen : s.app.router.closed = false) :
    (p.after deed plan said s).Pledged k cmd id := by
  obtain ⟨owners, hlasting⟩ := hstanding.lasting
  have hdeals := hlasting.deals hdeed hopen
  have hbefalls := hlasting.befalls hdeed
  have hrelieved := deed.router_relieved p.scene
  have hid : id.value < p.scene.app.router.table.nextId := hdistinct.told _ htold id h.requestId
  have hk : k < p.scene.app.cells.size := hlasting.accounted.sound.inRange k h.taken
  have hscene := p.scene_after deed plan said s
  -- a request that waits since just now is another one
  have hentries : ∀ e ∈ s.app.router.table.entries, e ∈ p.scene.app.router.table.entries ∨
      e.1 ≠ id ∧ e.2.continuation ≠ k := by
    intro e he
    have hentry := hdeals.entries e he
    rw [hrelieved] at hentry
    refine hentry.imp_right fun ⟨heq, hcell, _⟩ => ⟨?_, ?_⟩
    · rintro rfl
      rw [heq] at hid
      exact UInt64.lt_irrefl _ hid
    · rintro rfl
      rw [hcell] at hk
      exact Nat.lt_irrefl _ hk
  refine { requestId := h.requestId, taken := ?_, waits := ?_, gets := ⟨?_, ?_⟩, owes := ?_ }
  · rw [hscene]
    exact hbefalls.taken k h.taken
  · rw [hscene]
    intro e he
    rcases hentries e he with hold | ⟨hne, hne'⟩
    · exact h.waits e hold
    · exact ⟨fun heq => absurd heq hne, fun heq => absurd heq hne'⟩
  · rw [hscene]
    intro visit hvisit
    rcases hbefalls.history k visit hvisit with
      hold | hreturned | ⟨side, outcome, terminal, called, rfl, hqueued, hcalled, -⟩
    · exact h.gets.arrived visit hold
    · exact Or.inl hreturned
    · obtain ⟨rfl, rfl⟩ := h.gets.queued side outcome terminal hqueued
      rw [hcalled rfl]
      exact Or.inr rfl
  · rw [hscene]
    intro side outcome terminal hqueued
    obtain ⟨more, hqueue, hmore⟩ := hdeals.tasks side
    change _ ∈ (s.app.worker side).queue at hqueued
    rw [hqueue] at hqueued
    rcases List.mem_append.mp hqueued with hold | hnew
    · refine h.gets.queued side outcome terminal ?_
      rw [← Deed.queue_relieved hdeed]
      exact List.mem_append_right _ hold
    · cases hmore _ hnew with
      | plain hplain => cases hplain
      | fault => exact absurd hk (Nat.lt_irrefl _)
      | @result result id' request hreturned hid' hwaits =>
        rw [hrelieved] at hwaits
        obtain rfl := (h.waits _ hwaits).mpr rfl
        obtain rfl := hstanding.eq_of_returned hdistinct hdoes htold h.requestId hreturned hid'
        exact ⟨rfl, rfl⟩
  · rw [hscene]
    intro e he heq
    have hold := (hentries e he).resolve_right fun hne => hne.1 heq
    refine (h.owes e hold heq).after hdoes hdeed fun hreturned => ?_
    exact hdeals.ended _ id hreturned h.requestId rfl e he heq

/-- A command that the extension is told now. -/
theorem Standing.pledged_handed (h : p.Standing extension properties) (hdistinct : p.Distinct)
    (hdeed : p.scene.undergo deed = some s) (hopen : s.app.router.closed = false)
    (hhanded : .cmd cmd ∈ deed.handed p.scene .engine) :
    ∃ id, (p.after deed plan said s).Pledged p.scene.app.cells.size cmd id := by
  obtain ⟨owners, hlasting⟩ := h.lasting
  have hdeals := hlasting.deals hdeed hopen
  have hbefalls := hlasting.befalls hdeed
  have hplaced := hlasting.accounted.placed
  have hscene := p.scene_after deed plan said s
  obtain ⟨op, rfl, hop⟩ := Deed.mem_handed hhanded
  have hinbox := Scene.inbox_undergo hdeed .engine
  cases hdeed
  rcases op.numbered hplaced.sharded hop with
    honeway | ⟨handler, cmd', streaming, sent, id, rfl, hanswer, heq, hid, hnumbered⟩
  · cases honeway
  cases heq
  -- nothing has been queued for the continuation, for it is new
  have hnone (side : Side) (outcome : Outcome) (terminal : Bool) :
      .job (.resume p.scene.app.cells.size outcome terminal) ∉ (p.scene.app.worker side).queue := by
    intro hqueued
    have howner := hplaced.queued side _ outcome terminal hqueued
    rw [← hplaced.size, List.getElem?_eq_none (Nat.le_refl _)] at howner
    cases howner
  have hentries (e : RequestId × PendingRequest Nat Side)
      (he : e ∈ p.scene.app.router.table.entries) :
      e.1 ≠ id ∧ e.2.continuation ≠ p.scene.app.cells.size := by
    constructor
    · rintro rfl
      have hlt := hdistinct.waiting e he
      rw [hnumbered.eq] at hlt
      exact UInt64.lt_irrefl _ hlt
    · intro hcell
      have howner := hplaced.entries e he
      rw [hcell, ← hplaced.size, List.getElem?_eq_none (Nat.le_refl _)] at howner
      cases howner
  refine ⟨id, { requestId := hid, taken := ?_, waits := ?_, gets := ⟨?_, ?_⟩, owes := ?_ }⟩
  · rw [hscene]
    exact (hlasting.accounted.sound.sendCmd handler cmd' streaming).taken id hanswer
  · rw [hscene]
    intro e he
    rcases hdeals.entries e he with hold | ⟨hnew, hcell, -⟩
    · obtain ⟨hne, hne'⟩ := hentries e hold
      exact ⟨fun heq => absurd heq hne, fun heq => absurd heq hne'⟩
    · exact ⟨fun _ => hcell, fun _ => hnew.trans hnumbered.eq.symm⟩
  · rw [hscene]
    intro visit hvisit
    rcases hbefalls.history _ visit hvisit with
      hold | hreturned | ⟨side, outcome, terminal, called, -, hqueued, -⟩
    · rw [history_of_size_le (Nat.le_refl _)] at hold
      cases hold
    · exact Or.inl hreturned
    · exact absurd hqueued (hnone side outcome terminal)
  · rw [hscene]
    intro side outcome terminal hqueued
    obtain ⟨more, hqueue, hmore⟩ := hnumbered.tasks side
    have hmem := hqueue ▸ hqueued
    rcases List.mem_append.mp hmem with hold | hnew
    · exact absurd hold (hnone side outcome terminal)
    · cases hmore _ hnew
  · rw [hscene]
    intro e _ _
    have hbehind : .cmd cmd ∈ App.inbox (_ : App) .engine := hinbox ▸ List.mem_append_right _ hhanded
    refine Or.inl ?_
    rw [hscene]
    exact hbehind

end Pledged

end Parley

end Switchboard.App
