import Mathlib.Logic.Function.Basic
import Mathlib.Tactic.SplitIfs
import Switchboard.Permit
/-!
# Many callers at one pool

Callers ask for permits, wait in a full pool, look again, give up, drop permits and make calls, in
any order. Each act is what one of them does while no other touches the pool. Permits are numbered
as they are given out. The slots in use are those of the permits that are kept and of the calls in
progress, and no order of acts brings them above the capacity.
-/
namespace Switchboard

theorem PermitPool.isFull_eq_false_iff (p : PermitPool) :
    p.isFull = false ↔ p.inFlight < p.capacity := by
  simp [isFull]

/-- What a caller wants of a pool. -/
inductive Demand where
  /-- a permit at once or not at all -/
  | atOnce
  /-- a permit, however long it takes -/
  | patient
  /-- a permit within a limited time -/
  | brief
  /-- a slot for a call, however long it takes -/
  | call
deriving DecidableEq

/-- What happens at a pool. -/
inductive GateAct where
  /-- a caller asks, and takes a slot that is free -/
  | ask (caller : Nat) (demand : Demand)
  /-- a caller that waits looks again, and takes a slot that is free -/
  | look (caller : Nat)
  /-- the time of a caller is up: it looks for the last time -/
  | expire (caller : Nat)
  /-- a permit is dropped -/
  | drop (permit : Nat)
  /-- the innermost call of a caller ends, by returning or by unwinding -/
  | leave (caller : Nat)

/-- Whether an act is about a slot that a caller wants. -/
def GateAct.isRequest : GateAct → Bool
  | .ask .. | .look _ | .expire _ => true
  | .drop _ | .leave _ => false

/-- A pool with its callers. -/
structure Gate where
  pool : PermitPool
  /-- how many permits were given out; the next one has this number -/
  issued : Nat := 0
  /-- the permits that are kept -/
  kept : List Nat := []
  /-- the calls in progress, each with its caller and its permit; the latest comes first -/
  calls : List (Nat × Nat) := []
  /-- the callers that wait, and for what -/
  waiting : List (Nat × Demand) := []

namespace Gate

/-- A new pool. -/
def start (capacity : Nat) : Gate := { pool := .ofCapacity capacity }

/-- The permits that live. -/
def live (g : Gate) : List Nat := g.kept ++ g.calls.map Prod.snd

/-- Gives a caller the next permit, for it to keep or for a call. -/
def grant (g : Gate) (caller : Nat) (demand : Demand) : Gate :=
  if demand = .call then
    { g with pool := g.pool.take, issued := g.issued + 1, calls := (caller, g.issued) :: g.calls }
  else { g with pool := g.pool.take, issued := g.issued + 1, kept := g.kept ++ [g.issued] }

/-- What a caller waits for. -/
def wait? (g : Gate) (caller : Nat) : Option Demand := g.waiting.lookup caller

/-- The caller does not wait any more. -/
def awake (g : Gate) (caller : Nat) : Gate :=
  { g with waiting := g.waiting.filter (·.1 ≠ caller) }

/-- One act, where it is possible. A caller that waits does nothing else. -/
def step (g : Gate) : GateAct → Option Gate
  | .ask caller demand =>
    if (g.wait? caller).isSome then none
    else if g.pool.isFull then
      some (if demand = .atOnce then g else { g with waiting := g.waiting ++ [(caller, demand)] })
    else some (g.grant caller demand)
  | .look caller =>
    (g.wait? caller).map fun demand =>
      if g.pool.isFull then g else (g.awake caller).grant caller demand
  | .expire caller =>
    if g.wait? caller = some .brief then
      some (if g.pool.isFull then g.awake caller else (g.awake caller).grant caller .brief)
    else none
  | .drop permit =>
    if permit ∈ g.kept then some { g with pool := g.pool.give, kept := g.kept.erase permit }
    else none
  | .leave caller =>
    if (g.wait? caller).isSome then none
    else (g.calls.lookup caller).map fun permit =>
      { g with pool := g.pool.give, calls := g.calls.erase (caller, permit) }

/-- Acts one after the other. -/
def run (g : Gate) (acts : List GateAct) : Option Gate := acts.foldlM step g

@[simp] theorem run_nil (g : Gate) : g.run [] = some g := rfl

theorem run_cons (g : Gate) (act : GateAct) (acts : List GateAct) :
    g.run (act :: acts) = (g.step act).bind (·.run acts) :=
  List.foldlM_cons

theorem run_append (g : Gate) (front back : List GateAct) :
    g.run (front ++ back) = (g.run front).bind (·.run back) :=
  List.foldlM_append

/-! ## What an act does to the permits -/

/-- An act leaves all permits as they are, or gives out the next one where a slot is free, or ends
one of those that live. -/
inductive Effect (g g' : Gate) : Prop
  | none (pool : g'.pool = g.pool) (issued : g'.issued = g.issued) (kept : g'.kept = g.kept)
      (calls : g'.calls = g.calls)
  | given (free : g.pool.isFull = false) (pool : g'.pool = g.pool.take)
      (issued : g'.issued = g.issued + 1) (live : g'.live.Perm (g.issued :: g.live))
  | ended (permit : Nat) (pool : g'.pool = g.pool.give) (issued : g'.issued = g.issued)
      (live : g.live.Perm (permit :: g'.live))

theorem live_grant (g : Gate) (caller : Nat) (demand : Demand) :
    (g.grant caller demand).live.Perm (g.issued :: g.live) := by
  unfold grant live
  split
  · rw [List.map_cons]
    exact List.perm_middle
  · rw [List.append_assoc, List.singleton_append]
    exact List.perm_middle

@[simp] theorem pool_grant (g : Gate) (caller : Nat) (demand : Demand) :
    (g.grant caller demand).pool = g.pool.take := by
  unfold grant
  split
  · rfl
  · rfl

@[simp] theorem issued_grant (g : Gate) (caller : Nat) (demand : Demand) :
    (g.grant caller demand).issued = g.issued + 1 := by
  unfold grant
  split
  · rfl
  · rfl

/-- A lookup finds a pair of the list. -/
theorem mem_of_lookup_eq_some {β : Type} {caller : Nat} {b : β} {pairs : List (Nat × β)}
    (h : pairs.lookup caller = some b) : (caller, b) ∈ pairs := by
  induction pairs with
  | nil => exact nomatch h
  | cons pair pairs ih =>
    rw [List.lookup_cons] at h
    by_cases hcaller : caller = pair.1
    · simp only [hcaller, beq_self_eq_true, Option.some.injEq] at h
      simp [hcaller, ← h]
    · have hne : (caller == pair.1) = false := by simpa using hcaller
      rw [hne] at h
      exact List.mem_cons_of_mem pair (ih h)

/-- A request changes nothing but who waits where no slot is free. -/
theorem step_of_full {g g' : Gate} {act : GateAct} (hact : act.isRequest = true)
    (hfull : g.pool.isFull = true) (hstep : g.step act = some g') :
    ∃ waiting, g' = { g with waiting } := by
  cases act with
  | ask caller demand =>
    simp only [step, hfull, if_true] at hstep
    split_ifs at hstep with hwaits honce
    · exact ⟨g.waiting, (Option.some.inj hstep).symm⟩
    · exact ⟨_, (Option.some.inj hstep).symm⟩
  | look caller =>
    obtain ⟨demand, -, rfl⟩ := Option.map_eq_some_iff.mp hstep
    rw [if_pos hfull]
    exact ⟨g.waiting, rfl⟩
  | expire caller =>
    simp only [step, hfull, if_true] at hstep
    split_ifs at hstep
    exact ⟨_, (Option.some.inj hstep).symm⟩
  | drop permit => exact nomatch hact
  | leave caller => exact nomatch hact

/-- A request takes the next permit where a slot is free. -/
theorem step_of_free {g g' : Gate} {act : GateAct} (hact : act.isRequest = true)
    (hfree : g.pool.isFull = false) (hstep : g.step act = some g') :
    ∃ waiting caller demand, g' = ({ g with waiting } : Gate).grant caller demand := by
  cases act with
  | ask caller demand =>
    simp only [step, hfree, Bool.false_eq_true, if_false] at hstep
    split_ifs at hstep
    exact ⟨g.waiting, caller, demand, (Option.some.inj hstep).symm⟩
  | look caller =>
    obtain ⟨demand, -, rfl⟩ := Option.map_eq_some_iff.mp hstep
    simp only [hfree, Bool.false_eq_true, if_false]
    exact ⟨_, caller, demand, rfl⟩
  | expire caller =>
    simp only [step, hfree, Bool.false_eq_true, if_false] at hstep
    split_ifs at hstep
    exact ⟨_, caller, .brief, (Option.some.inj hstep).symm⟩
  | drop permit => exact nomatch hact
  | leave caller => exact nomatch hact

/-- Every act has one of the three effects. -/
theorem effect_of_step {g g' : Gate} {act : GateAct} (h : g.step act = some g') :
    Effect g g' := by
  cases hact : act.isRequest with
  | true =>
    cases hfull : g.pool.isFull with
    | true =>
      obtain ⟨waiting, rfl⟩ := step_of_full hact hfull h
      exact .none rfl rfl rfl rfl
    | false =>
      obtain ⟨waiting, caller, demand, rfl⟩ := step_of_free hact hfull h
      exact .given hfull (pool_grant ..) (issued_grant ..) (live_grant { g with waiting } ..)
  | false =>
    cases act with
    | ask caller demand => exact nomatch hact
    | look caller => exact nomatch hact
    | expire caller => exact nomatch hact
    | drop permit =>
      simp only [step] at h
      split_ifs at h with hkept
      obtain rfl := Option.some.inj h
      exact .ended permit rfl rfl ((List.perm_cons_erase hkept).append_right _)
    | leave caller =>
      simp only [step] at h
      split_ifs at h with hwaits
      obtain ⟨permit, hlookup, rfl⟩ := Option.map_eq_some_iff.mp h
      have hcalls : (g.calls.map Prod.snd).Perm
          (permit :: (g.calls.erase (caller, permit)).map Prod.snd) :=
        (List.perm_cons_erase (mem_of_lookup_eq_some hlookup)).map Prod.snd
      exact .ended permit rfl rfl ((hcalls.append_left _).trans List.perm_middle)

/-! ## What holds at all times -/

/-- The permits that live are told apart and fill the slots in use, of which there are no more than
the capacity. -/
structure Sound (capacity : Nat) (g : Gate) : Prop where
  capacity : g.pool.capacity = max capacity 1
  counted : g.pool.inFlight = g.live.length
  bounded : g.pool.inFlight ≤ g.pool.capacity
  distinct : g.live.Nodup
  older : ∀ permit ∈ g.live, permit < g.issued
  below : g.pool.inFlight ≤ g.pool.peak
  peak : g.pool.peak ≤ g.pool.capacity

variable {capacity : Nat} {g g' : Gate}

theorem sound_start (capacity : Nat) : (start capacity).Sound capacity where
  capacity := rfl
  counted := rfl
  bounded := Nat.zero_le _
  distinct := List.nodup_nil
  older := by simp [start, live]
  below := Nat.le_refl _
  peak := Nat.zero_le _

theorem Sound.effect (h : g.Sound capacity) (heffect : Effect g g') : g'.Sound capacity := by
  cases heffect with
  | none hpool hissued hkept hcalls =>
    have hlive : g'.live = g.live := by rw [live, hkept, hcalls, live]
    constructor
    · rw [hpool, h.capacity]
    · rw [hpool, hlive, h.counted]
    · rw [hpool]
      exact h.bounded
    · rw [hlive]
      exact h.distinct
    · rw [hlive, hissued]
      exact h.older
    · rw [hpool]
      exact h.below
    · rw [hpool]
      exact h.peak
  | given hfree hpool hissued hlive =>
    have hroom : g.pool.inFlight < g.pool.capacity := by
      simpa [PermitPool.isFull] using hfree
    have hpeak := h.peak
    constructor
    · rw [hpool]
      exact h.capacity
    · rw [hpool, hlive.length_eq, List.length_cons, ← h.counted]
      rfl
    · rw [hpool]
      exact hroom
    · rw [hlive.nodup_iff, List.nodup_cons]
      exact ⟨fun hmem => absurd (h.older _ hmem) (Nat.lt_irrefl _), h.distinct⟩
    · intro permit hmem
      rw [hissued]
      rcases List.mem_cons.mp (hlive.mem_iff.mp hmem) with rfl | hmem
      · exact Nat.lt_succ_self _
      · exact Nat.lt_succ_of_lt (h.older permit hmem)
    · simp only [hpool, PermitPool.take]
      omega
    · simp only [hpool, PermitPool.take]
      omega
  | ended permit hpool hissued hlive =>
    have hcount := h.counted
    have hbounded := h.bounded
    have hbelow := h.below
    rw [hlive.length_eq, List.length_cons] at hcount
    constructor
    · rw [hpool]
      exact h.capacity
    · simp only [hpool, PermitPool.give]
      omega
    · simp only [hpool, PermitPool.give]
      omega
    · exact (hlive.nodup_iff.mp h.distinct).of_cons
    · intro other hmem
      rw [hissued]
      exact h.older other (hlive.mem_iff.mpr (List.mem_cons_of_mem permit hmem))
    · simp only [hpool, PermitPool.give]
      omega
    · rw [hpool]
      exact h.peak

theorem Sound.step (h : g.Sound capacity) {act : GateAct} (hstep : g.step act = some g') :
    g'.Sound capacity :=
  h.effect (effect_of_step hstep)

theorem Sound.run (h : g.Sound capacity) {acts : List GateAct} (hrun : g.run acts = some g') :
    g'.Sound capacity := by
  induction acts generalizing g with
  | nil => simpa [Option.some.inj hrun] using h
  | cons act acts ih =>
    rw [run_cons] at hrun
    obtain ⟨next, hstep, hrest⟩ := Option.bind_eq_some_iff.mp hrun
    exact ih (h.step hstep) hrest

/-! ## The most slots that were ever in use -/

/-- An act keeps the peak or sets it to what is in use now. -/
theorem peak_of_step {act : GateAct} (hstep : g.step act = some g') :
    g.pool.peak ≤ g'.pool.peak ∧
      (g'.pool.peak = g.pool.peak ∨ g'.pool.peak = g'.pool.inFlight) := by
  cases effect_of_step hstep with
  | none hpool => simp [hpool]
  | given _ hpool =>
    simp only [hpool, PermitPool.take]
    omega
  | ended _ hpool => simp [hpool, PermitPool.give]

theorem peak_le_of_run {acts : List GateAct} (hrun : g.run acts = some g') :
    g.pool.peak ≤ g'.pool.peak := by
  induction acts generalizing g with
  | nil => simp [Option.some.inj hrun]
  | cons act acts ih =>
    rw [run_cons] at hrun
    obtain ⟨next, hstep, hrest⟩ := Option.bind_eq_some_iff.mp hrun
    exact Nat.le_trans (peak_of_step hstep).1 (ih hrest)

/-- The peak is not below what was in use at any time of a run. -/
theorem Sound.le_peak (h : g.Sound capacity) {front back : List GateAct} {mid : Gate}
    (hrun : g.run (front ++ back) = some g') (hmid : g.run front = some mid) :
    mid.pool.inFlight ≤ g'.pool.peak := by
  rw [run_append, hmid, Option.bind_some] at hrun
  exact Nat.le_trans (h.run hmid).below (peak_le_of_run hrun)

/-- The peak is what it was before a run, or was in use at some time of it. -/
theorem peak_reached {acts : List GateAct} (hrun : g.run acts = some g') :
    g'.pool.peak = g.pool.peak ∨ ∃ front back mid, acts = front ++ back ∧
      g.run front = some mid ∧ mid.pool.inFlight = g'.pool.peak := by
  induction acts generalizing g with
  | nil =>
    left
    rw [Option.some.inj hrun]
  | cons act acts ih =>
    rw [run_cons] at hrun
    obtain ⟨next, hstep, hrest⟩ := Option.bind_eq_some_iff.mp hrun
    rcases ih hrest with hsame | ⟨front, back, mid, rfl, hmid, hpeak⟩
    · rcases (peak_of_step hstep).2 with hkept | hnow
      · left
        rw [hsame, hkept]
      · right
        refine ⟨[act], acts, next, rfl, ?_, ?_⟩
        · rw [run_cons, hstep]
          rfl
        · rw [hsame, hnow]
    · right
      refine ⟨act :: front, back, mid, rfl, ?_, hpeak⟩
      rw [run_cons, hstep, Option.bind_some, hmid]

/-! ## Single acts -/

/-- A permit that ends had a slot of its own, which is free then. -/
theorem Sound.give (h : g.Sound capacity) {permit : Nat} (g' : Gate)
    (hpool : g'.pool = g.pool.give) (hlive : g.live.Perm (permit :: g'.live)) :
    g'.pool.inFlight + 1 = g.pool.inFlight ∧ g'.pool.isFull = false ∧ permit ∉ g'.live := by
  have hsome : g.pool.inFlight ≠ 0 := by
    rw [h.counted, hlive.length_eq]
    exact Nat.succ_ne_zero _
  have hbounded := h.bounded
  refine ⟨?_, ?_, (List.nodup_cons.mp (hlive.nodup_iff.mp h.distinct)).1⟩
  · simp only [hpool, PermitPool.give]
    omega
  · rw [hpool, PermitPool.isFull_eq_false_iff]
    simp only [PermitPool.give]
    omega

theorem Sound.step_drop (h : g.Sound capacity) {permit : Nat}
    (hstep : g.step (.drop permit) = some g') :
    g'.pool.inFlight + 1 = g.pool.inFlight ∧ g'.pool.isFull = false ∧ permit ∉ g'.live ∧
      g'.calls = g.calls ∧ g'.waiting = g.waiting := by
  simp only [Gate.step] at hstep
  split_ifs at hstep with hkept
  obtain rfl := Option.some.inj hstep
  obtain ⟨hone, hfree, hgone⟩ := h.give ⟨_, g.issued, _, g.calls, g.waiting⟩ rfl
    ((List.perm_cons_erase hkept).append_right (g.calls.map Prod.snd))
  exact ⟨hone, hfree, hgone, rfl, rfl⟩

/-- A caller that waits gets a slot when it looks and one is free. -/
theorem step_look_of_free {caller : Nat} {demand : Demand} (hwaits : g.wait? caller = some demand)
    (hfree : g.pool.isFull = false) :
    g.step (.look caller) = some ((g.awake caller).grant caller demand) := by
  simp [step, hwaits, hfree]

/-- A call stays in progress, whatever happens, until its caller leaves it. -/
theorem Sound.call_of_step (h : g.Sound capacity) {caller permit : Nat}
    (hcall : (caller, permit) ∈ g.calls) {act : GateAct} (hstep : g.step act = some g') :
    (caller, permit) ∈ g'.calls ∨
      act = .leave caller ∧ g'.pool.inFlight + 1 = g.pool.inFlight ∧ permit ∉ g'.live ∧
        g'.kept = g.kept := by
  cases hact : act.isRequest with
  | true =>
    left
    cases hfull : g.pool.isFull with
    | true =>
      obtain ⟨waiting, rfl⟩ := step_of_full hact hfull hstep
      exact hcall
    | false =>
      obtain ⟨waiting, other, demand, rfl⟩ := step_of_free hact hfull hstep
      unfold grant
      split
      · exact List.mem_cons_of_mem _ hcall
      · exact hcall
  | false =>
    cases act with
    | ask other demand => exact nomatch hact
    | look other => exact nomatch hact
    | expire other => exact nomatch hact
    | drop other =>
      left
      rw [(h.step_drop hstep).2.2.2.1]
      exact hcall
    | leave other =>
      simp only [Gate.step] at hstep
      split_ifs at hstep with hwaits
      obtain ⟨latest, hlookup, rfl⟩ := Option.map_eq_some_iff.mp hstep
      have hmem := mem_of_lookup_eq_some hlookup
      by_cases hsame : (caller, permit) = (other, latest)
      · right
        obtain ⟨rfl, rfl⟩ := Prod.mk.inj hsame
        have hlive := ((List.perm_cons_erase hmem).map Prod.snd).append_left g.kept
        obtain ⟨hone, -, hgone⟩ := h.give ⟨_, g.issued, g.kept, _, g.waiting⟩ rfl
          (hlive.trans List.perm_middle)
        exact ⟨rfl, hone, hgone, rfl⟩
      · left
        exact (List.mem_erase_of_ne hsame).mpr hcall

/-- A call that begins has the next permit, in a slot more than there were in use. -/
theorem begins_of_step {caller permit : Nat} (hnew : (caller, permit) ∉ g.calls) {act : GateAct}
    (hstep : g.step act = some g') (hcall : (caller, permit) ∈ g'.calls) :
    permit = g.issued ∧ g'.pool.inFlight = g.pool.inFlight + 1 ∧
      g'.calls = (caller, permit) :: g.calls ∧ g'.kept = g.kept := by
  cases hact : act.isRequest with
  | true =>
    cases hfull : g.pool.isFull with
    | true =>
      obtain ⟨waiting, rfl⟩ := step_of_full hact hfull hstep
      exact absurd hcall hnew
    | false =>
      obtain ⟨waiting, other, demand, rfl⟩ := step_of_free hact hfull hstep
      rw [grant] at hcall ⊢
      split_ifs at hcall ⊢ with hdemand
      · rcases List.mem_cons.mp hcall with hfirst | hold
        · obtain ⟨rfl, rfl⟩ := Prod.mk.inj hfirst
          exact ⟨rfl, rfl, rfl, rfl⟩
        · exact absurd hold hnew
      · exact absurd hcall hnew
  | false =>
    cases act with
    | ask other demand => exact nomatch hact
    | look other => exact nomatch hact
    | expire other => exact nomatch hact
    | drop other =>
      simp only [step] at hstep
      split_ifs at hstep
      obtain rfl := Option.some.inj hstep
      exact absurd hcall hnew
    | leave other =>
      simp only [step] at hstep
      split_ifs at hstep
      obtain ⟨latest, hlookup, rfl⟩ := Option.map_eq_some_iff.mp hstep
      exact absurd (List.mem_of_mem_erase hcall) hnew

end Gate
end Switchboard
