import Switchboard.Proofs.App.Changes
import Switchboard.Proofs.App.Tallies
import Switchboard.Proofs.Run.Embedding
/-!
# Slots of the pool

The tester's side holds a slot of the pool for each call of the router, and for nothing else. So
whatever is done to an application, by anybody and in any order, no slot is held when a callback
begins, and a call never finds the pool full, however small that is.
-/
namespace Switchboard.App

section Pool

variable {a a' : App}

@[simp] theorem pool_setWorker (a : App) (side : Side) (w : Worker Job) :
    (a.setWorker side w).pool = a.pool := by
  cases side
  · rfl
  · rfl

/-- A call of the router takes one slot and gives it back, whatever its answer. -/
theorem pool_during (a : App) (call : RouterCall) :
    ((PermitPool.during Program.pool (call.body a .tester)).run a).2.pool = a.pool.take.give := by
  rw [run_during]
  change (((call.body a .tester).run { a with pool := a.pool.take }).2.pool).give = _
  rw [(call.undisturbs a .tester _).pool]

/-- A change leaves the pool as it is, or takes a slot and gives it back. -/
theorem Change.pool (h : Change a a') : a'.pool = a.pool ∨ a'.pool = a.pool.take.give := by
  cases h with
  | inside call => exact .inr (pool_during a call)
  | outside call => exact .inl (call.undisturbs a .engine a).pool
  | pop side => exact .inl (pool_setWorker a side _)
  | takeOut i outcome terminal => exact .inl rfl
  | enlist handler => exact .inl rfl
  | remember i => exact .inl rfl
  | note notes => exact .inl rfl
  | stop => exact .inl (undisturbs_stop a).pool
  | acknowledge callback => exact .inl rfl
  | queue side task => exact .inl (undisturbs_accept side task a).pool
  | putBack i terminal handler => exact .inl rfl
  | finish side ended => exact .inl (pool_setWorker a side _)
  | install tester => exact .inl rfl
  | abort reason => exact .inl (undisturbs_abort reason a).pool
  | shutDown side => exact .inl (pool_setWorker a side _)
  | leave => exact .inl rfl

/-- Changes give back every slot that they take, and take no two at once. -/
theorem Changes.pool (h : Changes a a') :
    a'.pool.inFlight = a.pool.inFlight ∧ a'.pool.capacity = a.pool.capacity ∧
      a'.pool.peak ≤ max a.pool.peak (a.pool.inFlight + 1) := by
  induction h with
  | refl => exact ⟨rfl, rfl, Nat.le_max_left _ _⟩
  | tail _ hchange ih =>
    obtain ⟨hflight, hcapacity, hpeak⟩ := ih
    rcases hchange.pool with hsame | hcall
    · rw [hsame]
      exact ⟨hflight, hcapacity, hpeak⟩
    · rw [hcall]
      simp only [PermitPool.take, PermitPool.give]
      omega

end Pool

/-- No slot of the pool is held, so a call finds one free; and never were two held at once. -/
structure SlotsFree (a : App) (capacity : Nat) : Prop where
  inFlight : a.pool.inFlight = 0
  notFull : a.pool.isFull = false
  capacity : a.stats.poolCapacity = capacity
  peak : a.stats.poolPeak ≤ 1

/-- A program after which as many slots are held as before. -/
def KeepsSlots {α : Type} (p : Program α) : Prop :=
  ∀ a, (p.run a).2.pool.inFlight = a.pool.inFlight

section Slots

variable {config : Config} {name : Option String} {properties : String} {extension : Extension}
  {built a b : App}

theorem InChanges.keepsSlots {α : Type} {p : Program α} (h : InChanges α p) : KeepsSlots p :=
  fun a => (h a).pool.1

/-- A pool that holds a single slot, or more; a configuration without any is refused. -/
theorem pool_of_build (hbuilt : build config name properties extension = .ok built) :
    0 < config.jobPoolSize.toNat ∧ built.pool = { capacity := config.jobPoolSize.toNat } := by
  have hsize : config.jobPoolSize ≠ 0 := by
    intro hzero
    have hrefused : config.validate = .error .noPermits := if_pos hzero
    unfold build at hbuilt
    rw [hrefused] at hbuilt
    cases hbuilt
  have hpos : 0 < config.jobPoolSize.toNat :=
    Nat.pos_of_ne_zero fun hzero => hsize (UInt64.toNat_inj.mp hzero)
  obtain ⟨name, properties, rfl⟩ := eq_ofParts_of_build hbuilt
  refine ⟨hpos, ?_⟩
  change PermitPool.ofCapacity config.jobPoolSize.toNat = _
  rw [PermitPool.ofCapacity, Nat.max_eq_left hpos]

theorem Changes.slotsFree (hbuilt : build config name properties extension = .ok built)
    (h : Changes built b) : b.SlotsFree config.jobPoolSize.toNat := by
  obtain ⟨hpos, hpool⟩ := pool_of_build hbuilt
  obtain ⟨hflight, hcapacity, hpeak⟩ := h.pool
  rw [hpool] at hflight hcapacity hpeak
  refine ⟨hflight, ?_, hcapacity, hpeak⟩
  rw [PermitPool.isFull, hcapacity, hflight]
  exact decide_eq_false (Nat.not_le.mpr hpos)

/-- A run to the end reports of an application that it has changed. -/
theorem changes_report {tester : TesterScript} {report : RunReport}
    (h : ((Program.runToEnd tester).run a).1 = .ok report) :
    ∃ b, Changes a b ∧ report = (Program.report.run b).1 := by
  have hstart : InChanges _ (Program.startRun tester) := inChanges_turn (.start tester)
  have hrun := (inTurns_runOn 0 Program.settleLimit).inChanges
  have hdrain (side : Side) : InChanges _ (Program.drain side) :=
    (inChanges_accept side .mark).bind fun _ => (inTurns_advanceQueued side).inChanges
  have hrest : InChanges _ (Program.drain .tester >>= fun _ => Program.drain .engine >>= fun _ =>
      Program.settle) :=
    (hdrain .tester).bind fun _ => (hdrain .engine).bind fun _ => inTurns_settle.inChanges
  obtain ⟨b, hb⟩ : ∃ b, ((Program.startRun tester).run a).2 = b := ⟨_, rfl⟩
  obtain ⟨c, hc⟩ : ∃ c, ((Program.runOn 0 Program.settleLimit).run b).2 = c := ⟨_, rfl⟩
  have hchanged : Changes a c := by
    rw [← hc, ← hb]
    exact (hstart a).trans (hrun _)
  cases hfinished : ((Program.runOn 0 Program.settleLimit).run b).1 with
  | false =>
    rw [Program.runToEnd, run_bind, hb, run_bind, hfinished] at h
    cases h
  | true =>
    rw [Scene.run_runToEnd hb hfinished hc rfl rfl rfl] at h
    exact ⟨_, hchanged.trans (hrest c), (Except.ok.inj h).symm⟩

/-- Whatever has happened to an application that was built, no slot of its pool is held, not even
when a callback begins; so a call finds a slot free, however few there are. Whatever a callback
does, and whatever is done in turns, is made of such changes. A send and the return of a result
leave as many slots held as before, whatever they answer, for a call of the router runs nobody's
code. So never were two slots held at once, and a report says so. -/
theorem slots_free (hbuilt : build config name properties extension = .ok built) :
    (∀ b, Changes built b → b.SlotsFree config.jobPoolSize.toNat ∧
      ∀ b' callback, Begins b b' callback →
        b'.SlotsFree config.jobPoolSize.toNat ∧ InChanges _ callback) ∧
    (∀ t : Turn, InChanges _ t.perform) ∧
    (∀ b, Reached built b → Changes built b ∧ ∀ e, Changes built (b.ended e)) ∧
    (∀ handler cmd streaming, KeepsSlots (Program.sendCmd handler cmd streaming)) ∧
    (∀ side msg completion, KeepsSlots (Program.send side msg completion)) ∧
    (∀ side result completion, KeepsSlots (Program.returnResult side result completion)) ∧
    (∀ (a : App) (side : Side) (call : RouterCall), Undisturbs _ (call.body a side)) ∧
    ∀ b tester report, Reached built b → ((Program.runToEnd tester).run b).1 = .ok report →
      report.env.poolPeak ≤ 1 := by
  refine ⟨fun b hb => ⟨hb.slotsFree hbuilt, fun b' callback hbegins => ?_⟩, inChanges_turn,
    fun b hb => ⟨hb.changes, fun e => ?_⟩, ?_, ?_, ?_, fun a side call => call.undisturbs a side,
    fun b tester report hb hreport => ?_⟩
  · exact ⟨Changes.slotsFree hbuilt (hb.tail hbegins.change), hbegins.inChanges⟩
  · exact hb.changes.trans ((inTurns_ending e).inChanges b)
  · exact fun handler cmd streaming => (makings_inChanges.sendCmd handler cmd streaming).keepsSlots
  · exact fun side msg completion => (makings_inChanges.send side msg completion).keepsSlots
  · exact fun side result completion => (makings_inChanges.returnResult side result completion).keepsSlots
  · obtain ⟨c, hc, rfl⟩ := changes_report hreport
    exact (Changes.slotsFree hbuilt (hb.changes.trans hc)).peak

/-- An application with a single slot, whose extension answers pings. -/
def narrow : App := ofParts { jobPoolSize := 1 } "echo" (.object []) .responder

/-- A tester that sends data whenever a callback of its own begins: when it starts, when its ping is
answered, and when its data was handed over. -/
def chatter : TesterScript where
  onStart := some [.sendCmd { name := "ping" } "ping" false
    [.send (.data { name := "news" }) (some (.mk "sent"
      [.send (.data { name := "more" }) none, .stop]))] [], .startDone]

/-- With one slot, sends are made inside callbacks of three kinds, and the run comes to its end. -/
theorem chatter_slots_free :
    ∃ report, build { jobPoolSize := 1 } (some "echo") "" .responder = .ok narrow ∧
      ((Program.runToEnd chatter).run narrow).1 = .ok report ∧
      report.env.counters.cmdsSent = 1 ∧ report.env.counters.oneWaySent = 2 ∧
      report.env.poolCapacity = 1 ∧ report.env.poolPeak = 1 ∧ report.env.poolPeak ≤ 1 ∧
      (narrow.ended (.run chatter)).SlotsFree 1 := by
  have hbuilt : build { jobPoolSize := 1 } (some "echo") "" .responder = .ok narrow := rfl
  obtain ⟨hfree, -, hreached, -, -, -, -, hreports⟩ := slots_free hbuilt
  have hreturns : ((Program.runToEnd chatter).run narrow).1.toOption.map (fun report =>
      (report.env.counters.cmdsSent, report.env.counters.oneWaySent, report.env.poolCapacity,
        report.env.poolPeak)) = some (1, 2, 1, 1) := by
    decide +kernel
  obtain ⟨report, hreport, hcounts⟩ := Option.map_eq_some_iff.mp hreturns
  have hran : ((Program.runToEnd chatter).run narrow).1 = .ok report := by
    cases hanswer : ((Program.runToEnd chatter).run narrow).1 with
    | ok report' =>
      rw [hanswer] at hreport
      exact congrArg Except.ok (Option.some.inj hreport)
    | error e =>
      rw [hanswer] at hreport
      cases hreport
  simp only [Prod.mk.injEq] at hcounts
  obtain ⟨hcmds, hsent, hcapacity, hpeak⟩ := hcounts
  exact ⟨report, hbuilt, hran, hcmds, hsent, hcapacity, hpeak,
    hreports narrow chatter report .here hran,
    (hfree _ ((hreached narrow .here).2 (.run chatter))).1⟩

end Slots

end Switchboard.App
