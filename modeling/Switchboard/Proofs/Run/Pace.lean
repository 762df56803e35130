import Switchboard.Proofs.App.Placement
import Switchboard.Proofs.Lifecycle.Announcements
/-!
# The pace of an application

Operations are performed by anybody at any time, acknowledgements and stops among them. Whatever is
performed, the announcements are those of the phases up to the present one; and from the stopping
phase on, nothing waits and nothing can be sent.
-/
namespace Switchboard.App

/-- How far the lifecycle of an application has come. -/
def rank (a : App) : Nat := a.lifecycle.phase.rank

/-- The announcements keep up with the phases, and a stop is announced when everything was
cancelled. -/
structure Paced (a : App) : Prop where
  listening : a.lifecycle.listening = true
  announced : a.lifecycle.announced = PhaseEvent.order.take a.rank
  hushed : 2 ≤ a.rank → a.Hushed

/-- What comes of an application while an operation is performed. -/
structure Proceeds (owners : List Side) (a a' : App) : Prop where
  placed : a'.Placed owners
  queue : ∀ side, Extends (¬ a.Hushed) (a.worker side).queue (a'.worker side).queue
  hushed : a.Hushed → a'.Hushed
  paced : a'.Paced
  rank : a.rank ≤ a'.rank
  tester : a'.tester = a.tester

/-- The owners of the continuations that an operation makes. -/
def Operation.owners : Operation → List Side
  | sendCmd handler _ _ => [handler.side]
  | send .. | returnResult _ | complete _ | stop | await | acknowledge _ => []

section Phases

variable {owners : List Side} {a b : App}

/-- The lifecycle is as it was. -/
theorem Paced.of_lifecycle (ha : a.Paced) (hlifecycle : b.lifecycle = a.lifecycle)
    (hhushed : a.Hushed → b.Hushed) : b.Paced := by
  have hrank : b.rank = a.rank := congrArg (·.phase.rank) hlifecycle
  constructor
  · rw [hlifecycle]
    exact ha.listening
  · rw [hlifecycle, hrank]
    exact ha.announced
  · intro hstopped
    exact hhushed (ha.hushed (hrank ▸ hstopped))

/-- The next phase is entered and announced. -/
theorem Paced.enter (ha : a.Paced) {event : PhaseEvent} (hnext : event.phase.rank = a.rank + 1)
    (hlifecycle : b.lifecycle = { a.lifecycle with phase := event.phase }.announce event)
    (hhushed : 2 ≤ event.phase.rank → b.Hushed) : b.Paced ∧ b.rank = a.rank + 1 := by
  have hentered : b.lifecycle =
      { a.lifecycle with
        phase := event.phase
        announced := a.lifecycle.announced ++ [event] } := by
    rw [hlifecycle, Lifecycle.announce, if_pos ha.listening]
  have hrank : b.rank = event.phase.rank := congrArg (·.phase.rank) hentered
  refine ⟨⟨?_, ?_, fun hstopped => hhushed (hrank ▸ hstopped)⟩, hrank.trans hnext⟩
  · rw [hentered]
    exact ha.listening
  · rw [hentered, hrank, PhaseEvent.order_take_rank, hnext, Nat.add_sub_cancel, ← ha.announced]

/-- A program that leaves the lifecycle alone. -/
theorem Paced.proceeds (ha : a.Paced) (hgrows : Grows owners (¬ a.Hushed) a b)
    (hhushed : a.Hushed → b.Hushed) : Proceeds owners a b where
  placed := hgrows.placed
  queue := hgrows.queue
  hushed := hhushed
  paced := ha.of_lifecycle hgrows.lifecycle hhushed
  rank := Nat.le_of_eq (congrArg (·.phase.rank) hgrows.lifecycle).symm
  tester := hgrows.tester

theorem Proceeds.refl (hplaced : a.Placed owners) (hpaced : a.Paced) : Proceeds owners a a :=
  hpaced.proceeds hplaced.still id

end Phases

section Acknowledgements

variable {owners : List Side} {a : App}

/-- An acknowledgement is refused, or the phase after the present one is entered and announced.
That is never the stopping phase. -/
theorem PhaseCallback.acknowledge_cases (callback : PhaseCallback) (l : Lifecycle) :
    (callback.acknowledge l).2 = l ∨
      ∃ event : PhaseEvent, event ≠ .stopping ∧ event.phase.rank = l.phase.rank + 1 ∧
        (callback.acknowledge l).2 = { l with phase := event.phase }.announce event := by
  have hadvance (source : Phase) (event : PhaseEvent) (operation : String)
      (hevent : event ≠ .stopping) (hnext : event.phase.rank = source.rank + 1) :
      (l.advance source event operation).2 = l ∨
        ∃ entered : PhaseEvent, entered ≠ .stopping ∧ entered.phase.rank = l.phase.rank + 1 ∧
          (l.advance source event operation).2 =
            { l with phase := entered.phase }.announce entered := by
    rw [Lifecycle.advance]
    split
    · next hsource => exact Or.inr ⟨event, hevent, by rw [hsource, hnext], rfl⟩
    · exact Or.inl rfl
  cases callback with
  | start => exact hadvance .created .started _ (by decide) rfl
  | stop => exact hadvance .stopping .stopped _ (by decide) rfl
  | deinit => exact hadvance .stopped .deinited _ (by decide) rfl

theorem Placed.acknowledge (hplaced : a.Placed owners) (hpaced : a.Paced)
    (callback : PhaseCallback) :
    Proceeds owners a ((Operation.acknowledge callback).perform.run a).2 := by
  change Proceeds owners a { a with lifecycle := (callback.acknowledge a.lifecycle).2 }
  rcases callback.acknowledge_cases a.lifecycle with hsame | ⟨event, hevent, hnext, hentered⟩
  · rw [hsame]
    exact .refl hplaced hpaced
  · have hmoved : Unmoved a { a with lifecycle := (callback.acknowledge a.lifecycle).2 } :=
      ⟨rfl, fun _ => rfl, rfl⟩
    have hpassed : 2 ≤ event.phase.rank →
        { a with lifecycle := (callback.acknowledge a.lifecycle).2 }.Hushed := by
      intro hrank
      have hstopped : 2 ≤ a.rank := by
        cases event with
        | started => exact absurd hrank (by decide)
        | stopping => exact absurd rfl hevent
        | stopped => exact Nat.le_of_eq (Nat.succ.inj hnext)
        | deinited => exact Nat.le_trans (by decide) (Nat.le_of_eq (Nat.succ.inj hnext))
      exact hmoved.hushed (hpaced.hushed hstopped)
    obtain ⟨hpaced', hrank⟩ := hpaced.enter hnext hentered hpassed
    exact ⟨hplaced.unmoved hmoved, fun _ => .refl _ _, hmoved.hushed, hpaced',
      Nat.le_of_lt (hrank ▸ Nat.lt_succ_self _), rfl⟩

end Acknowledgements

section Stops

variable {owners : List Side} {a : App}

/-- The application in which the teardown of a stop begins. -/
def stopping (a : App) : App := { a with lifecycle := { a.lifecycle with phase := .stopping } }

/-- A run that was started is stopped: it is torn down, and then that is announced. -/
theorem run_stop_of_started (h : a.lifecycle.phase = .started) :
    (Operation.stop.perform.run a).2 =
      { ((Program.tearDown "test stopped").run a.stopping).2 with
        lifecycle := ((Program.tearDown "test stopped").run a.stopping).2.lifecycle.announce
          .stopping } := by
  have hstep : (Program.lifecycle.step Lifecycle.enterStopping).run a = (.ok true, a.stopping) := by
    change (a.lifecycle.enterStopping.1, { a with lifecycle := a.lifecycle.enterStopping.2 }) = _
    rw [Lifecycle.enterStopping, h]
    rfl
  change ((Lifecycle.beginStop Program.lifecycle _).run a).2 = _
  rw [Lifecycle.beginStop, run_bind, hstep]
  rfl

/-- In any other phase a stop does nothing. -/
theorem run_stop_of_ne (h : a.lifecycle.phase ≠ .started) :
    (Operation.stop.perform.run a).2 = a := by
  have hstep : (Program.lifecycle.step Lifecycle.enterStopping).run a =
      (a.lifecycle.enterStopping.1, { a with lifecycle := a.lifecycle.enterStopping.2 }) := rfl
  change ((Lifecycle.beginStop Program.lifecycle _).run a).2 = _
  rw [Lifecycle.beginStop, run_bind, hstep, Lifecycle.enterStopping]
  cases hphase : a.lifecycle.phase with
  | started => exact absurd hphase h
  | created => rfl
  | stopping => rfl
  | stopped => rfl
  | deinited => rfl

theorem Placed.stop (hplaced : a.Placed owners) (hpaced : a.Paced) :
    Proceeds owners a (Operation.stop.perform.run a).2 := by
  by_cases hstarted : a.lifecycle.phase = .started
  · have hstopping : Unmoved a a.stopping := ⟨rfl, fun _ => rfl, rfl⟩
    have hplaced' : a.stopping.Placed owners := hplaced.unmoved hstopping
    obtain ⟨hgrows, -⟩ := behaves_tearDown "test stopped" a.stopping hplaced'
    have hhushed := hplaced'.hushed_tearDown "test stopped"
    rw [run_stop_of_started hstarted]
    set b := ((Program.tearDown "test stopped").run a.stopping).2
    have hannounced : Unmoved b { b with lifecycle := b.lifecycle.announce .stopping } :=
      ⟨rfl, fun _ => rfl, rfl⟩
    have hrank : PhaseEvent.stopping.phase.rank = a.rank + 1 := by
      rw [rank, hstarted]
      rfl
    obtain ⟨hpaced', hrank'⟩ := hpaced.enter hrank
      (congrArg (Lifecycle.announce · .stopping) hgrows.lifecycle)
      fun _ => hannounced.hushed hhushed
    exact ⟨hgrows.placed.unmoved hannounced,
      fun side => (hgrows.queue side).imp fun hloud h => hloud (hstopping.hushed h),
      fun _ => hannounced.hushed hhushed, hpaced', Nat.le_of_lt (hrank' ▸ Nat.lt_succ_self _),
      hgrows.tester⟩
  · rw [run_stop_of_ne hstarted]
    exact .refl hplaced hpaced

end Stops

section Commands

variable {owners : List Side} {a : App}

theorem behaves_sendCmdFrom {i : Nat} {side : Side} (howner : owners[i]? = some side) (cmd : Cmd)
    (streaming : Bool) : Behaves owners _ (Program.sendCmdFrom side i cmd streaming) := by
  have hget : Behaves owners _ (get : Program App) :=
    behaves_of_unmoved (fun _ => ⟨rfl, fun _ => rfl, rfl⟩) (fun _ => rfl) fun _ => rfl
  have hpool (f : PermitPool → PermitPool) : Behaves owners _ (Program.pool.modify f) :=
    behaves_of_unmoved (fun _ => ⟨rfl, fun _ => rfl, rfl⟩) (fun _ => rfl) fun _ => rfl
  have hcount (f : Counters → Counters) : Behaves owners _ (Program.count f) :=
    behaves_of_unmoved (fun _ => ⟨rfl, fun _ => rfl, rfl⟩) (fun _ => rfl) fun _ => rfl
  apply composes_behaves.bind hget
  intro b
  cases side with
  | engine => exact behaves_sendThrough howner cmd streaming
  | tester =>
    have hduring : Behaves owners _ (PermitPool.during Program.pool
        ((b.outlet .tester).sendCmd Program.fabric cmd i streaming)) := by
      apply composes_behaves.bind (hpool _)
      intro _
      apply composes_behaves.bind (behaves_sendThrough howner cmd streaming)
      intro answer
      exact composes_behaves.bind (hpool _) fun _ => composes_behaves.pure _
    apply composes_behaves.bind hduring
    intro answer
    cases answer with
    | error e => exact composes_behaves.pure _
    | ok id => exact composes_behaves.bind (hcount _) fun _ => composes_behaves.pure _

/-- A command that is sent has a new continuation, which belongs to the sender. -/
theorem Placed.sendCmd (hplaced : a.Placed owners) (hpaced : a.Paced) (handler : Handler)
    (cmd : Cmd) (streaming : Bool) :
    Proceeds (owners ++ [handler.side]) a
      ((Program.sendCmd handler cmd streaming).run a).2 := by
  let pushed : App := { a with cells := a.cells.push (.ofHandler handler) }
  have hpushed : pushed.Placed (owners ++ [handler.side]) := hplaced.push handler
  have howner : (owners ++ [handler.side])[a.cells.size]? = some handler.side := by
    rw [← hplaced.size]
    exact List.getElem?_concat_length
  have hremember : Behaves (owners ++ [handler.side]) _
      (modify fun b => { b with sent := b.sent ++ [a.cells.size] } : Program PUnit) :=
    behaves_of_unmoved (fun _ => ⟨rfl, fun _ => rfl, rfl⟩) (fun _ => rfl) fun _ => rfl
  have hpushed' : a.Hushed → pushed.Hushed := fun h => ⟨h.closed, h.table, h.entries⟩
  have hstill : Grows (owners ++ [handler.side]) (¬ a.Hushed) a pushed :=
    hpushed.grows (fun _ => rfl) rfl rfl
  have hfrom {b : App} (hgrows : Grows (owners ++ [handler.side]) (¬ pushed.Hushed) pushed b)
      (hhushed : pushed.Hushed → b.Hushed) : Proceeds (owners ++ [handler.side]) a b :=
    hpaced.proceeds (hstill.trans (hgrows.imp fun hloud h => hloud (hpushed' h)))
      fun h => hhushed (hpushed' h)
  obtain ⟨hgrows, hhushed⟩ := behaves_sendCmdFrom howner cmd streaming pushed hpushed
  have hrun : (Program.newCell handler).run a = (a.cells.size, pushed) := rfl
  rw [Program.sendCmd, run_bind, hrun, run_bind]
  cases hanswer : ((Program.sendCmdFrom handler.side a.cells.size cmd streaming).run pushed).1 with
  | error e => exact hfrom hgrows hhushed
  | ok id =>
    obtain ⟨hgrows', hhushed'⟩ := hremember _ hgrows.placed
    exact hfrom (hgrows.trans (hgrows'.imp fun hloud h => hloud (hhushed h)))
      fun h => hhushed' (hhushed h)

/-- Whatever is performed. -/
theorem Operation.proceeds (op : Operation) (hplaced : a.Placed owners) (hpaced : a.Paced) :
    Proceeds (owners ++ op.owners) a (op.perform.run a).2 := by
  have hbehaves {p : Program op.Answer} (hp : Behaves owners _ p) :
      Proceeds (owners ++ []) a (p.run a).2 := by
    obtain ⟨hgrows, hhushed⟩ := hp a hplaced
    rw [List.append_nil]
    exact hpaced.proceeds hgrows hhushed
  cases op with
  | sendCmd handler cmd streaming => exact hplaced.sendCmd hpaced handler cmd streaming
  | send p msg => exact hbehaves (behaves_send p msg)
  | returnResult result =>
    refine hbehaves (composes_behaves.returnResult (fun id result => ?_) result)
    exact behaves_onTable fun _ ht => ht.serves_complete id result
  | complete completion =>
    exact hbehaves (behaves_accept .tester (.job (.completion completion)) rfl nofun)
  | stop =>
    have hstop := hplaced.stop hpaced
    rw [← List.append_nil owners] at hstop
    exact hstop
  | await => exact hbehaves (behaves_accept .tester .mark rfl nofun)
  | acknowledge callback =>
    have hacknowledged := hplaced.acknowledge hpaced callback
    rw [← List.append_nil owners] at hacknowledged
    exact hacknowledged

end Commands

end Switchboard.App
