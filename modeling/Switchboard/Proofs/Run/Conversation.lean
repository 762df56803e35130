import Switchboard.Proofs.Run.Answers
import Switchboard.Proofs.Run.Headway
/-!
# Conversations with the extension that answers pings

Whoever talks to the extension while the router is open gets what it promises: one final answer to
each command, which is a success just if the command is called `ping`; a greeting, if a property asks
for one; and a message called `pong` for each one called `ping`, in their order.
-/
namespace Switchboard.App

namespace Parley

/-- What holds along every parley in which there are ids left. -/
structure Orderly (properties : Json) (p : Parley) : Prop where
  distinct : p.Distinct
  voiced : p.Voiced properties
  pledged : ∀ k cmd, (k, .cmd cmd) ∈ p.told → ∃ id, p.Pledged k cmd id

section Orderly

variable {extension : String} {properties : Json} {p p' : Parley}

theorem Standing.size_run (h : p.Standing extension properties) {parts : List Part}
    (hrun : p.run parts = some p') : p.scene.app.cells.size ≤ p'.scene.app.cells.size := by
  induction parts generalizing p with
  | nil =>
    cases hrun
    exact Nat.le_refl _
  | cons part parts ih =>
    obtain ⟨next, hstep, hrest⟩ := Option.bind_eq_some_iff.mp hrun
    exact (h.size_step hstep).trans (ih (h.step hstep) hrest)

theorem Orderly.step (h : p.Orderly properties) (hstanding : p.Standing extension properties)
    {part : Part} (hstep : p.step part = some p') (hroomy : p'.Roomy) : p'.Orderly properties := by
  have hvoiced := h.voiced.step hstanding h.distinct hstep
  obtain ⟨deed, plan, said, s, hdoes, hdeed, hopen, -, rfl⟩ := step_eq_some hstep
  refine ⟨h.distinct.after hstanding hdeed hopen hroomy, hvoiced, fun k cmd hmem => ?_⟩
  rcases mem_told_after hmem with htold | ⟨msg, hhanded, heq⟩
  · obtain ⟨id, hpledged⟩ := h.pledged k cmd htold
    exact ⟨id, hpledged.after hstanding h.distinct htold hdoes hdeed hopen⟩
  · cases heq
    exact hstanding.pledged_handed h.distinct hdeed hopen hhanded

/-- Along every parley. -/
theorem Orderly.run (h : p.Orderly properties) (hstanding : p.Standing extension properties)
    {parts : List Part} (hrun : p.run parts = some p') (hroomy : p'.Roomy) :
    p'.Orderly properties := by
  induction parts generalizing p with
  | nil =>
    cases hrun
    exact h
  | cons part parts ih =>
    obtain ⟨next, hstep, hrest⟩ := Option.bind_eq_some_iff.mp hrun
    have hstanding' := hstanding.step hstep
    have hroomy' : next.Roomy := (hstanding'.size_run hrest).trans_lt hroomy
    exact ih (h.step hstanding hstep hroomy') hstanding' hrest

end Orderly

end Parley

/-- The endings of a continuation that are queued or have arrived. -/
def endingsMet (a : App) (k : Nat) : Nat :=
  queuedIn a.testerWorker.queue k + queuedIn a.engineWorker.queue k +
    (a.history k).countP Visit.isEnd

namespace Parley

section Conversations

variable {config : Config} {name : Option String} {properties : String} {built : App} {p : Parley}

/-- The properties of an application that was built. -/
theorem exists_properties_of_build {extension : Extension}
    (hbuilt : build config name properties extension = .ok built) :
    ∃ called json, readProperties properties = .ok json ∧
      built = ofParts config called json extension := by
  unfold build at hbuilt
  split at hbuilt
  · cases hbuilt
  · cases hbuilt
  · split at hbuilt
    · cases hbuilt
    · split at hbuilt
      · cases hbuilt
      · next hread =>
        cases hbuilt
        exact ⟨_, _, hread, rfl⟩

/-- A parley with a new application. -/
theorem standing_ofApp (hbuilt : build config name properties .responder = .ok built) :
    ∃ json, readProperties properties = .ok json ∧ (ofApp built).Standing built.name json ∧
      (ofApp built).Orderly json := by
  have hlasting := Scene.lasting_ofApp hbuilt
  obtain ⟨hhoused, -, -⟩ := Scene.housed_ofApp hbuilt
  obtain ⟨called, json, hread, rfl⟩ := exists_properties_of_build hbuilt
  set table : PendingTable Nat Side := .ofShards config.pendingShards.toNat
  have hnext : table.nextId.toNat = 1 := rfl
  have hnone : table.entries = [] := PendingTable.entries_ofShards _
  refine ⟨json, hread, ?_, ?_⟩
  · exact
      { lasting := ⟨[], hlasting⟩
        housed := hhoused
        opened := rfl
        table := rfl
        routes := rfl
        nextId := Nat.le_of_eq hnext
        lined := ⟨[], rfl, fun _ => List.not_mem_nil, rfl⟩
        starts := Nat.le_refl 1
        greeting := fun hcues => absurd rfl hcues
        planned := fun _ hop => absurd hop List.not_mem_nil }
  · refine ⟨⟨fun e he => ?_, ?_, ?_, ?_, ?_⟩, rfl, fun _ _ htold => absurd htold List.not_mem_nil⟩
    · change e ∈ table.entries at he
      rw [hnone] at he
      cases he
    · exact fun _ hx => absurd hx List.not_mem_nil
    · exact fun _ hmsg => absurd hmsg List.not_mem_nil
    · exact .nil
    · exact fun _ hx => absurd hx List.not_mem_nil

/-- A command whose answer is not owed any more has it, queued or arrived, and no other ending. -/
theorem Pledged.endingsMet {k : Nat} {cmd : Cmd} {id : RequestId} (h : p.Pledged k cmd id)
    (hsound : p.scene.app.Sound 0) :
    p.scene.app.endingsMet k = 1 ∨ p.scene.app.endingsMet k = 0 ∧ p.Owes cmd := by
  have hendings : 0 + p.scene.app.endingsFor k = p.scene.app.router.table.takenFor k :=
    hsound.endings k
  have hone : p.scene.app.router.table.takenFor k = 1 :=
    List.count_eq_one_of_mem hsound.once h.taken
  rw [hone, endingsFor] at hendings
  rw [App.endingsMet]
  cases hwaiting : p.scene.app.router.table.waitingFor k with
  | zero =>
    refine Or.inl ?_
    omega
  | succ n =>
    refine Or.inr ⟨by omega, ?_⟩
    have hpos : 0 < p.scene.app.router.table.waitingFor k := by omega
    obtain ⟨e, he, hcell⟩ := List.countP_pos_iff.mp hpos
    exact h.owes e he ((h.waits e he).mpr (of_decide_eq_true hcell))

/-- What the extension replies to messages. -/
theorem flatMap_replies (greeting : Option String) (msgs : List Message) :
    (msgs.map Cue.message).flatMap (Cue.replies greeting) =
      (msgs.filter (·.name = "ping")).filterMap (·.kind.pong?) := by
  induction msgs with
  | nil => rfl
  | cons msg msgs ih =>
    rw [List.map_cons, List.flatMap_cons, ih, Cue.replies]
    by_cases hname : msg.name = "ping"
    · cases hpong : msg.kind.pong? with
      | none => simp [hname, hpong]
      | some pong => simp [hname, hpong]
    · simp [hname]

/-- The extension can always do all that is left for it to do, and then it owes no answer. -/
theorem Orderly.exists_done {extension : String} {json : Json} (h : p.Orderly json)
    (hstanding : p.Standing extension json) :
    ∃ p', p.Headway p' ∧ p'.plan = [] ∧ p'.cues = p.line ∧ (p'.Roomy →
      ∀ k cmd, (k, .cmd cmd) ∈ p.told → p'.scene.app.endingsMet k = 1) := by
  obtain ⟨p', hheadway, hrests, hempty, hcues⟩ := hstanding.exists_done
  refine ⟨p', hheadway, hrests.plan, hcues, fun hroomy k cmd htold => ?_⟩
  obtain ⟨parts, -, hrun⟩ := hheadway.parts
  obtain ⟨id, hpledged⟩ := (h.run hstanding hrun hroomy).pledged k cmd (hheadway.told ▸ htold)
  obtain ⟨owners, hlasting⟩ := (hheadway.standing hstanding).lasting
  refine (hpledged.endingsMet hlasting.accounted.sound).resolve_right fun ⟨_, howes⟩ => ?_
  rcases howes with hqueued | hplanned
  · rw [inbox, hempty] at hqueued
    exact absurd hqueued List.not_mem_nil
  · rw [hrests.plan] at hplanned
    exact absurd hplanned List.not_mem_nil

/-- Whatever has happened in a parley with a new application, as long as its router is open and fewer
commands were sent than there are ids, the extension has kept its promises. Each command that it was
told gets one result, final and a success just if the command is called `ping`, unless the extension
is yet to come to it or to return the result. It is called for its initialisation, then for what it
is told, in order, and among that to start at most once. On these cues, and in their order, it says
to the tester a greeting when it is started, just if the property is a text, with that text, and a
message called `pong` of the same kind for each message called `ping`. What it says and returns is
what its code does on a cue; and it can always do all of that, whatever others have done, until it
has come to everything that it is called for and every command has its result. -/
theorem responder_converses (hbuilt : build config name properties .responder = .ok built)
    {parts : List Part} (hrun : (ofApp built).run parts = some p) (hroomy : p.Roomy) :
    (∀ k cmd, (k, .cmd cmd) ∈ p.told → ∃ result : CmdResult,
      result.isFinal = true ∧ (result.verdict = .ok ↔ cmd.name = "ping") ∧
        p.scene.app.Gets k result ∧
        (p.scene.app.endingsMet k = 1 ∨ p.scene.app.endingsMet k = 0 ∧ p.Owes cmd)) ∧
    (∃ json, readProperties properties = .ok json ∧ p.Lined json ∧
      p.line.countP Cue.isStart ≤ 1 ∧ p.Voiced json ∧
      ∀ msgs : List Message, p.cues = .init json :: .start :: msgs.map .message → p.plan = [] →
        p.said.map Message.bare =
          (((json.member? "greetingMsg").bind Json.string?).map fun text =>
            .cmd { name := "greeting", payload := text.toUTF8.data.toList }).toList ++
          (msgs.filter (·.name = "ping")).filterMap (·.kind.pong?)) ∧
    (∃ p', p.Headway p' ∧ p'.plan = [] ∧ p'.cues = p.line ∧ (p'.Roomy →
      ∀ k cmd, (k, .cmd cmd) ∈ p.told → p'.scene.app.endingsMet k = 1)) ∧
    ∀ (a : App) (job : Job) (cue : Cue), a.extension = .responder →
      Cue.ofTask? (.job job) = some cue →
      (Program.runJob .engine job).run a =
        (.ok (), ((Program.performAll (cue.plan (a.cued cue))).run (a.cued cue)).2) := by
  obtain ⟨json, hread, hnew, horderly⟩ := standing_ofApp hbuilt
  have hstanding := hnew.run hrun
  have hp := horderly.run hnew hrun hroomy
  obtain ⟨owners, hlasting⟩ := hstanding.lasting
  refine ⟨fun k cmd htold => ?_, ⟨json, hread, hstanding.lined, ?_, hp.voiced, ?_⟩,
    hp.exists_done hstanding, fun a job cue ha hcue => run_cue ha hcue⟩
  · obtain ⟨id, hpledged⟩ := hp.pledged k cmd htold
    refine ⟨.answering (Responder.verdictOn cmd) cmd, rfl, ?_, hpledged.gets,
      hpledged.endingsMet hlasting.accounted.sound⟩
    change Responder.verdictOn cmd = .ok ↔ _
    rw [Responder.verdictOn]
    split
    · next hname => exact ⟨fun _ => hname, fun _ => rfl⟩
    · next hname => exact ⟨nofun, fun h => absurd h hname⟩
  · have hstarts := hstanding.starts
    omega
  · intro msgs hcues hplan
    have hvoiced := hp.voiced
    rw [Voiced, hplan, hcues, List.flatMap_nil, List.append_nil, List.flatMap_cons,
      List.flatMap_cons, flatMap_replies] at hvoiced
    exact hvoiced

/-- What happens when somebody runs a tester that does nothing in its phases: the extension is
initialised and started, and then it is sent a command and data of one name and another command. -/
def chat : List Part :=
  let takes : Part := .deed (.act (.take .engine))
  let ends : Part := .deed (.act (.finish .engine (.ok ())))
  let sends (op : Operation) : Part := .deed (.act (.operate op))
  let cmd (name : String) : Operation :=
    .sendCmd (.scripted .tester name [] [] none) { name } false
  let data (name : String) : Operation :=
    .send { src := .tester, defaultDest := .extension "echo", executor := .tester } (.data { name })
  [.deed (.act (.call {})), .deed (.act .proceed), .deed (.act .proceed), takes, ends, takes, .reply,
    ends, sends (cmd "ping"), sends (data "ping"), sends (cmd "ring"), takes, .reply, .reply, ends,
    takes, .reply, ends, takes, .reply, ends]

/-- The extension greets, and answers all that it was sent. -/
theorem responder_converses_chat :
    ∃ built p, build {} (some "echo") "\x7b\"greetingMsg\":\"hi\"\x7d" .responder = .ok built ∧
      (ofApp built).run chat = some p ∧ p.Roomy ∧
      p.told.map (fun (k, msg) => (k, msg.bare)) =
        [(1, .cmd { name := "ping" }), (2, .data { name := "ping" }), (2, .cmd { name := "ring" })] ∧
      p.said.map Message.bare =
        [.cmd { name := "greeting", payload := "hi".toUTF8.data.toList }, .cmd { name := "pong" },
          .data { name := "pong" }] ∧
      [1, 2].map p.scene.app.endingsMet = [1, 1] ∧
      ∀ k cmd, (k, .cmd cmd) ∈ p.told → ∃ result : CmdResult, result.isFinal = true ∧
        (result.verdict = .ok ↔ cmd.name = "ping") ∧ p.scene.app.Gets k result ∧
        (p.scene.app.endingsMet k = 1 ∨ p.scene.app.endingsMet k = 0 ∧ p.Owes cmd) := by
  have hchat : ((build {} (some "echo") "\x7b\"greetingMsg\":\"hi\"\x7d" .responder).toOption.bind
      fun built => ((ofApp built).run chat).map fun p => (p.scene.app.cells.size,
        p.told.map (fun (k, msg) => (k, msg.bare)), p.said.map Message.bare,
        [1, 2].map p.scene.app.endingsMet)) =
      some (4,
        [(1, .cmd { name := "ping" }), (2, .data { name := "ping" }), (2, .cmd { name := "ring" })],
        [.cmd { name := "greeting", payload := "hi".toUTF8.data.toList }, .cmd { name := "pong" },
          .data { name := "pong" }], [1, 1]) := by
    decide +kernel
  cases hbuilt : build {} (some "echo") "\x7b\"greetingMsg\":\"hi\"\x7d" .responder with
  | error e =>
    rw [hbuilt] at hchat
    cases hchat
  | ok built =>
    rw [hbuilt] at hchat
    obtain ⟨p, hrun, hp⟩ := Option.map_eq_some_iff.mp hchat
    obtain ⟨hsize, hp⟩ := Prod.mk.inj hp
    obtain ⟨htold, hp⟩ := Prod.mk.inj hp
    obtain ⟨hsaid, hmet⟩ := Prod.mk.inj hp
    have hroomy : p.Roomy := by
      rw [Roomy, hsize]
      decide
    obtain ⟨hanswered, -⟩ := responder_converses hbuilt hrun hroomy
    exact ⟨built, p, rfl, hrun, hroomy, htold, hsaid, hmet, hanswered⟩

end Conversations

end Parley

end Switchboard.App
