import Switchboard.Proofs.App.Makings
/-!
# What is shown

Events are shown when a callback begins, and behind each action that a script performs. Whatever an
action does itself shows nothing, counts nothing of what handlers are called with, and leaves every
continuation alone that exists; the new ones wait with the handlers that they were made for.
-/
namespace Switchboard.App

/-- The events that were shown on a side. -/
def events (a : App) : Side → List Event
  | .tester => a.testerEvents
  | .engine => a.engineEvents

/-- The action that an event shows. -/
def Event.action? : Event → Option Action
  | .action a _ => some a
  | .outcome .. | .ack _ | .initExtension .. | .startExtension | .message _ | .phase ..
  | .callback .. => none

/-- Whether a script ends there. -/
def Action.isPanic : Action → Bool
  | .panic => true
  | _ => false

/-- What is performed of a script: all actions up to the first panic. -/
def performed (script : List Action) : List Action := script.takeWhile (!·.isPanic)

/-- What callbacks leave alone, apart from what they show: what was counted of the outcomes that
handlers were called with, and the continuations that exist. -/
structure Respects (a a' : App) : Prop where
  received : a'.counters.received = a.counters.received
  cells : ∀ (i : Nat) (c : Continuation Handler), a.cells[i]? = some c → a'.cells[i]? = some c
  fresh : ∀ (i : Nat) (c : Continuation Handler), a'.cells[i]? = some c → a.cells[i]? = none →
    ∃ handler, c = .ofHandler handler

/-- Nothing is shown between two applications, either. -/
structure Mute (a a' : App) : Prop extends Respects a a' where
  events : ∀ side, a'.events side = a.events side

/-- A program that shows nothing. -/
def Mutes (α : Type) (p : Program α) : Prop := ∀ a, Mute a (p.run a).2

section Mute

variable {α : Type} {a a' a'' : App}

theorem Respects.refl (a : App) : Respects a a := by
  refine ⟨rfl, fun _ _ => id, fun i c hfound hnone => ?_⟩
  rw [hnone] at hfound
  cases hfound

theorem Respects.trans (h : Respects a a') (h' : Respects a' a'') : Respects a a'' where
  received := h'.received.trans h.received
  cells i c hfound := h'.cells i c (h.cells i c hfound)
  fresh i c hfound hnone := by
    cases hbetween : a'.cells[i]? with
    | none => exact h'.fresh i c hfound hbetween
    | some d =>
      obtain rfl := Option.some.inj ((h'.cells i d hbetween).symm.trans hfound)
      exact h.fresh i d hbetween hnone

theorem Respects.size (h : Respects a a') : a.cells.size ≤ a'.cells.size := by
  apply Nat.le_of_not_lt
  intro hlt
  have hfound := h.cells _ _ (Array.getElem?_eq_getElem hlt)
  exact absurd (lt_size_of_getElem? hfound) (Nat.lt_irrefl _)

/-- What keeps the continuations and the counters. -/
theorem respects_of_same (hcounters : a'.counters.received = a.counters.received)
    (hcells : a'.cells = a.cells) : Respects a a' := by
  refine ⟨hcounters, fun i c hfound => ?_, fun i c hfound hnone => ?_⟩
  · rw [hcells]
    exact hfound
  · rw [hcells, hnone] at hfound
    cases hfound

theorem Mute.refl (a : App) : Mute a a := ⟨.refl a, fun _ => rfl⟩

theorem Mute.trans (h : Mute a a') (h' : Mute a' a'') : Mute a a'' :=
  ⟨h.toRespects.trans h'.toRespects, fun side => (h'.events side).trans (h.events side)⟩

/-- What changes neither the counters, nor the continuations, nor what is shown. -/
theorem mute_of_same (hcounters : a'.counters.received = a.counters.received)
    (hcells : a'.cells = a.cells) (htester : a'.testerEvents = a.testerEvents)
    (hengine : a'.engineEvents = a.engineEvents) : Mute a a' := by
  refine ⟨respects_of_same hcounters hcells, fun side => ?_⟩
  cases side with
  | tester => exact htester
  | engine => exact hengine

theorem Undisturbed.mute (h : Undisturbed a a') : Mute a a' :=
  mute_of_same (congrArg _ h.counters) h.cells h.testerEvents h.engineEvents

theorem composes_mutes : Composes Mutes where
  pure _ a := .refl a
  bind hp hf a := (hp a).trans (hf _ _)

theorem Undisturbs.mutes {p : Program α} (h : Undisturbs α p) : Mutes α p := fun a => (h a).mute

theorem mutes_of_same {p : Program α} (h : ∀ a, (p.run a).2.counters.received = a.counters.received ∧
    (p.run a).2.cells = a.cells ∧ (p.run a).2.testerEvents = a.testerEvents ∧
    (p.run a).2.engineEvents = a.engineEvents) : Mutes α p := by
  intro a
  obtain ⟨hcounters, hcells, htester, hengine⟩ := h a
  exact mute_of_same hcounters hcells htester hengine

/-- A continuation that is made waits with its handler. -/
theorem mutes_newCell (handler : Handler) : Mutes _ (Program.newCell handler) := by
  intro a
  refine ⟨⟨rfl, fun i c hfound => ?_, fun i c hfound hnone => ?_⟩, fun side => ?_⟩
  · change (a.cells.push (.ofHandler handler))[i]? = some c
    rw [Array.getElem?_push, if_neg (Nat.ne_of_lt (lt_size_of_getElem? hfound))]
    exact hfound
  · change (a.cells.push (.ofHandler handler))[i]? = some c at hfound
    rw [Array.getElem?_push] at hfound
    split at hfound
    · exact ⟨handler, (Option.some.inj hfound).symm⟩
    · rw [hnone] at hfound
      cases hfound
  · cases side
    · rfl
    · rfl

/-- What actions are made of shows nothing. -/
theorem makings_mutes : Makings Mutes where
  toComposes := composes_mutes
  get := .refl
  note h := mutes_of_same fun a => by
    rw [h a]
    exact ⟨rfl, rfl, rfl, rfl⟩
  inside call := by
    have hpool (f : PermitPool → PermitPool) : Mutes _ (Program.pool.modify f) :=
      mutes_of_same fun _ => ⟨rfl, rfl, rfl, rfl⟩
    refine composes_mutes.bind Mute.refl fun a => composes_mutes.bind (hpool _) fun _ => ?_
    refine composes_mutes.bind (call.undisturbs a .tester).mutes fun answer => ?_
    exact composes_mutes.bind (hpool _) fun _ => composes_mutes.pure answer
  outside call :=
    composes_mutes.bind Mute.refl fun a => (call.undisturbs a .engine).mutes
  enlist := mutes_newCell
  remember _ := mutes_of_same fun _ => ⟨rfl, rfl, rfl, rfl⟩
  stop := undisturbs_stop.mutes
  acknowledge _ := (undisturbs_lifecycle_step _).mutes
  accept side task := (undisturbs_accept side task).mutes

end Mute

/-! ## Scripts -/

/-- A script is enacted on a side: its actions are shown up to the first panic, and nothing else
is. -/
structure Enacts (side : Side) (script : List Action) (a a' : App) : Prop extends Respects a a' where
  shows : ∃ actions, a'.events side = a.events side ++ actions ∧
    actions.map Event.action? = (performed script).map some
  elsewhere : ∀ other ≠ side, a'.events other = a.events other

section Scripts

variable {side : Side} {a a' a'' : App}

theorem events_addEvent (a : App) (side other : Side) (event : Event) :
    (a.addEvent side event).events other =
      a.events other ++ if other = side then [event] else [] := by
  cases side <;> cases other <;> simp [addEvent, events]

theorem respects_addEvent (a : App) (side : Side) (event : Event) :
    Respects a (a.addEvent side event) := by
  cases side with
  | tester => exact respects_of_same rfl rfl
  | engine => exact respects_of_same rfl rfl

/-- Nothing is performed, and nothing is shown. -/
theorem Mute.enacts (h : Mute a a') {script : List Action} (hscript : performed script = []) :
    Enacts side script a a' where
  toRespects := h.toRespects
  shows := ⟨[], by rw [List.append_nil, h.events], by rw [hscript]; rfl⟩
  elsewhere other _ := h.events other

/-- An action is performed and shown, and then the rest of the script. -/
theorem Enacts.cons (h : Mute a a') {action : Action} (haction : action.isPanic = false)
    (answer : Answer) {script : List Action}
    (hrest : Enacts side script (a'.addEvent side (.action action answer)) a'') :
    Enacts side (action :: script) a a'' where
  toRespects := h.toRespects.trans ((respects_addEvent a' side _).trans hrest.toRespects)
  shows := by
    obtain ⟨actions, hevents, hactions⟩ := hrest.shows
    refine ⟨.action action answer :: actions, ?_, ?_⟩
    · rw [hevents, events_addEvent, if_pos rfl, h.events, List.append_assoc]
      rfl
    · rw [performed, List.takeWhile_cons, haction, Bool.not_false, if_pos rfl]
      exact congrArg (some action :: ·) hactions
  elsewhere other hother := by
    rw [hrest.elsewhere other hother, events_addEvent, if_neg hother, h.events, List.append_nil]

/-- Every action but a panic is answered. -/
theorem exists_answer (a : App) (side : Side) (inside : Bool) (current : Option Cmd)
    {action : Action} (haction : action.isPanic = false) :
    ∃ answer, ((Program.act side inside current action).run a).1 = .ok answer := by
  unfold Program.act
  split
  · exact ⟨_, rfl⟩
  · exact ⟨_, rfl⟩
  · cases current with
    | none => exact ⟨_, rfl⟩
    | some cmd => exact ⟨_, rfl⟩
  · exact ⟨_, rfl⟩
  · exact ⟨_, rfl⟩
  · exact ⟨_, rfl⟩
  · cases haction
  · cases side with
    | tester => exact ⟨_, rfl⟩
    | engine => exact ⟨_, rfl⟩

/-- A panic does nothing. -/
theorem run_act_of_isPanic (a : App) (side : Side) (inside : Bool) (current : Option Cmd)
    {action : Action} (haction : action.isPanic = true) :
    (Program.act side inside current action).run a = (.error ⟨"scripted panic"⟩, a) := by
  cases action with
  | panic => rfl
  | _ => cases haction

/-- Whatever a script says, up to a panic. -/
theorem enacts_actAll (side : Side) (inside : Bool) (current : Option Cmd) (script : List Action)
    (a : App) : Enacts side script a ((Program.actAll side inside current script).run a).2 := by
  induction script generalizing a with
  | nil => exact (Mute.refl a).enacts rfl
  | cons action script ih =>
    rw [Program.actAll, run_bind]
    cases haction : action.isPanic with
    | true =>
      rw [run_act_of_isPanic a side inside current haction]
      refine (Mute.refl a).enacts ?_
      rw [performed, List.takeWhile_cons, haction]
      rfl
    | false =>
      obtain ⟨answer, hanswer⟩ := exists_answer a side inside current haction
      rw [hanswer]
      exact .cons (makings_mutes.act side inside current action a) haction answer (ih _)

end Scripts

end Switchboard.App
