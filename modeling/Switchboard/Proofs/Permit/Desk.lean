import Mathlib.Data.List.Nodup
import Switchboard.Proofs.Permit.Gate
/-!
# Desks at a pool

A desk serves one request after another, calls with requests inside of them included. All that it
does is a course of acts at its pool: under each of its names a permit is kept, and after a request,
however it ended, the calls in progress are those from before. So a desk never takes more slots than
there are, and neither do any callers in any order.
-/
namespace Switchboard

theorem perm_of_erase {n : Nat} {l rest : List Nat} (h : l.Perm (n :: rest)) :
    (l.erase n).Perm rest := by
  have herase := h.erase n
  rwa [List.erase_cons_head] at herase

/-- The same pool, nobody waits, and a permit is kept under each name of the desk. -/
structure Gate.Seats (g : Gate) (d : PermitDesk) : Prop where
  pool : g.pool = d.pool
  waiting : g.waiting = []
  names : d.held.Nodup
  kept : ∃ number : String → Nat, g.kept.Perm (d.held.map number)

/-- Acts at a gate lead to a desk, with the same calls in progress as before. -/
def Gate.Leads (g : Gate) (d : PermitDesk) : Prop :=
  ∃ acts g', g.run acts = some g' ∧ g'.Seats d ∧ g'.calls = g.calls

namespace Gate

variable {capacity : Nat} {g : Gate} {d : PermitDesk}

theorem Seats.leads (h : g.Seats d) : g.Leads d := ⟨[], g, rfl, h, rfl⟩

/-- Acts, and then whatever leads on from there. -/
theorem leads_of_run {acts : List GateAct} {mid : Gate} (hrun : g.run acts = some mid)
    (hcalls : mid.calls = g.calls) (h : mid.Leads d) : g.Leads d := by
  obtain ⟨more, g', hmore, hseats, hsame⟩ := h
  refine ⟨acts ++ more, g', ?_, hseats, hsame.trans hcalls⟩
  rw [run_append, hrun, Option.bind_some, hmore]

theorem Leads.bind {next : PermitDesk} (hs : g.Sound capacity) (h : g.Leads d)
    (hnext : ∀ mid : Gate, mid.Sound capacity → mid.Seats d → mid.Leads next) : g.Leads next := by
  obtain ⟨acts, mid, hrun, hseats, hcalls⟩ := h
  exact leads_of_run hrun hcalls (hnext mid (hs.run hrun) hseats)

/-- Where nobody waits, anybody can ask. -/
theorem Seats.run_ask (h : g.Seats d) (caller : Nat) (demand : Demand)
    (hfree : g.pool.isFull = false) :
    g.run [.ask caller demand] = some (g.grant caller demand) := by
  have hwait : g.wait? caller = none := by simp [wait?, h.waiting]
  simp [run_cons, step, hwait, hfree]

theorem run_drop {permit : Nat} (h : permit ∈ g.kept) :
    g.run [.drop permit] = some { g with pool := g.pool.give, kept := g.kept.erase permit } := by
  simp [run_cons, step, h]

/-- A permit that is kept under a new name, or in the place of the one that was kept there. -/
theorem Seats.leads_store (h : g.Seats d) (caller : Nat) {demand : Demand}
    (hdemand : demand ≠ .call) (name : String) :
    (g.grant caller demand).Leads (d.store name) := by
  obtain ⟨number, hkept⟩ := h.kept
  have hgrant : g.grant caller demand =
      { g with pool := g.pool.take, issued := g.issued + 1, kept := g.kept ++ [g.issued] } :=
    if_neg hdemand
  have hothers : ∀ names : List String, name ∉ names →
      names.map (Function.update number name g.issued) = names.map number := by
    intro names hnew
    apply List.map_congr_left
    intro other hother
    apply Function.update_of_ne
    rintro rfl
    exact hnew hother
  rw [hgrant, PermitDesk.store]
  by_cases hname : name ∈ d.held
  · -- the permit that had the name is dropped
    have hheld := List.perm_cons_erase hname
    have hrest : name ∉ d.held.erase name := h.names.not_mem_erase
    have hall : (g.kept ++ [g.issued]).Perm
        (number name :: g.issued :: (d.held.erase name).map number) :=
      calc
        (g.kept ++ [g.issued]).Perm (g.issued :: g.kept) := List.perm_append_singleton _ _
        List.Perm _ (g.issued :: number name :: (d.held.erase name).map number) :=
          (hkept.trans (hheld.map number)).cons _
        List.Perm _ _ := List.Perm.swap ..
    have hmem : number name ∈ g.kept ++ [g.issued] := hall.mem_iff.mpr List.mem_cons_self
    rw [if_pos hname]
    refine ⟨[.drop (number name)], _, run_drop hmem, ?_, rfl⟩
    refine ⟨by rw [h.pool], h.waiting, h.names, Function.update number name g.issued, ?_⟩
    refine (perm_of_erase hall).trans ?_
    have hupdated := hheld.map (Function.update number name g.issued)
    rw [List.map_cons, Function.update_self, hothers _ hrest] at hupdated
    exact hupdated.symm
  · apply Seats.leads
    rw [if_neg hname]
    refine ⟨by rw [h.pool], h.waiting, ?_, Function.update number name g.issued, ?_⟩
    · exact List.nodup_append.mpr ⟨h.names, List.nodup_singleton name, by
        rintro other hother _ hlast rfl
        exact hname (List.mem_singleton.mp hlast ▸ hother)⟩
    · rw [List.map_append, List.map_singleton, Function.update_self, hothers _ hname]
      exact hkept.append_right _

/-- A slot that is free is taken under a name. -/
theorem Seats.leads_take (h : g.Seats d) (hfree : g.pool.isFull = false) (name : String) :
    g.Leads (d.store name) :=
  leads_of_run (h.run_ask 0 .atOnce hfree) rfl (h.leads_store 0 (by decide) name)

/-- The permit of a name, without which the gate seats a desk without that name. -/
theorem Seats.exists_drop (h : g.Seats d) {name : String} (hname : name ∈ d.held) :
    ∃ permit ∈ g.kept,
      ({ g with pool := g.pool.give, kept := g.kept.erase permit } : Gate).Seats (d.drop name) := by
  obtain ⟨number, hkept⟩ := h.kept
  have hall := hkept.trans ((List.perm_cons_erase hname).map number)
  have hfilter : d.held.filter (· ≠ name) = d.held.erase name := by
    rw [h.names.erase_eq_filter]
    apply List.filter_congr
    intro other _
    by_cases hother : other = name
    · simp [hother]
    · simp [hother]
  refine ⟨number name, hall.mem_iff.mpr List.mem_cons_self, ?_⟩
  rw [PermitDesk.drop, if_pos hname, hfilter]
  exact ⟨by rw [h.pool], h.waiting, h.names.erase name, number, perm_of_erase hall⟩

theorem Seats.leads_drop (h : g.Seats d) (name : String) : g.Leads (d.drop name) := by
  by_cases hname : name ∈ d.held
  · obtain ⟨permit, hmem, hseats⟩ := h.exists_drop hname
    exact ⟨[.drop permit], _, run_drop hmem, hseats, rfl⟩
  · rw [PermitDesk.drop, if_neg hname]
    exact h.leads

/-- A permit is taken and dropped at once. -/
theorem Sound.leads_probe (hs : g.Sound capacity) (h : g.Seats d)
    (hfree : g.pool.isFull = false) : g.Leads { d with pool := g.pool.take.give } := by
  obtain ⟨number, hkept⟩ := h.kept
  have hgrant : g.grant 0 .atOnce =
      { g with pool := g.pool.take, issued := g.issued + 1, kept := g.kept ++ [g.issued] } := rfl
  have hnew : g.issued ∉ g.kept := fun hmem =>
    absurd (hs.older _ (List.mem_append_left _ hmem)) (Nat.lt_irrefl _)
  have hdrop : (g.grant 0 .atOnce).run [.drop g.issued] = _ := run_drop (by simp [hgrant])
  refine leads_of_run (h.run_ask 0 .atOnce hfree) rfl ⟨_, _, hdrop, ?_, rfl⟩
  refine ⟨rfl, h.waiting, h.names, number, ?_⟩
  rw [hgrant]
  simpa [List.erase_append_right _ hnew] using hkept

/-- The caller that waits takes the slot of a permit that is dropped. -/
theorem Sound.run_drop_look (hs : g.Sound capacity) {permit : Nat} (hmem : permit ∈ g.kept)
    {caller : Nat} {demand : Demand} (hwaiting : g.waiting = [(caller, demand)]) :
    g.run [.drop permit, .look caller] = some (({ g with
      pool := g.pool.give, kept := g.kept.erase permit, waiting := [] } : Gate).grant
        caller demand) := by
  have hdrop := run_drop hmem
  have hfree : g.pool.give.isFull = false := (hs.step_drop (by simpa [run_cons] using hdrop)).2.1
  have hlook : Gate.step { g with pool := g.pool.give, kept := g.kept.erase permit }
      (.look caller) = some _ :=
    step_look_of_free (by simp [hwaiting] : g.waiting.lookup caller = some demand) hfree
  rw [← List.singleton_append, run_append, hdrop, Option.bind_some, run_cons, hlook]
  simp [awake, hwaiting]

/-- A caller waits in a full pool, and takes the slot of a permit that is dropped. -/
theorem Sound.leads_acquireWaiting (hs : g.Sound capacity) (h : g.Seats d) {name freed : String}
    (hfull : g.pool.isFull = true) (hfreed : freed ∈ d.held) :
    g.Leads ((d.drop freed).store name) := by
  obtain ⟨permit, hmem, hseats⟩ := h.exists_drop hfreed
  have hwait : g.run [.ask 1 .patient] = some { g with waiting := [(1, .patient)] } := by
    simp [run_cons, Gate.step, wait?, h.waiting, hfull]
  rw [h.waiting] at hseats
  have hpatient : Demand.patient ≠ .call := by decide
  exact leads_of_run hwait rfl
    (leads_of_run ((hs.run hwait).run_drop_look hmem rfl) rfl (hseats.leads_store 1 hpatient name))

/-- A call that ends gives its slot back. -/
theorem leads_leave {within : Gate} {caller permit : Nat} (h : within.Seats d)
    (hcalls : within.calls = (caller, permit) :: g.calls) :
    ∃ g', within.run [.leave caller] = some g' ∧ g'.Seats { d with pool := d.pool.give } ∧
      g'.calls = g.calls := by
  have hwait : within.wait? caller = none := by simp [wait?, h.waiting]
  refine ⟨{ within with pool := within.pool.give, calls := g.calls }, ?_, ?_, rfl⟩
  · simp [run_cons, step, hwait, hcalls]
  · exact ⟨by rw [h.pool], h.waiting, h.names, h.kept⟩

mutual

/-- Whatever is asked at a desk is done by acts at its gate. -/
theorem Sound.leads_serve {g : Gate} {d : PermitDesk} (hs : g.Sound capacity) (h : g.Seats d) :
    ∀ request : PermitRequest, g.Leads (d.serve request).2
  | .tryAcquire name | .acquireTimeout name | .acquire name => by
    rw [PermitDesk.serve, ← h.pool]
    cases hfull : g.pool.isFull with
    | true => exact h.leads
    | false => exact h.leads_take hfull name
  | .release name => by
    rw [PermitDesk.serve]
    exact h.leads_drop name
  | .acquireWaiting name freed => by
    rw [PermitDesk.serve, ← h.pool]
    by_cases hwait : g.pool.isFull = true ∧ freed ∈ d.held
    · rw [if_pos hwait]
      exact hs.leads_acquireWaiting h hwait.1 hwait.2
    · rw [if_neg hwait]
      exact h.leads
  | .probe => by
    rw [PermitDesk.serve, PermitPool.tryTake, ← h.pool]
    cases hfull : g.pool.isFull with
    | true =>
      have hsame : g.Seats { d with pool := g.pool } := ⟨rfl, h.waiting, h.names, h.kept⟩
      exact hsame.leads
    | false => exact hs.leads_probe h hfull
  | .run body => by
    rw [PermitDesk.serve, ← h.pool]
    cases hfull : g.pool.isFull with
    | true => exact h.leads
    | false =>
      have hask := h.run_ask 0 .call hfull
      have hwithin : (g.grant 0 .call).Seats { d with pool := g.pool.take } :=
        ⟨rfl, h.waiting, h.names, h.kept⟩
      obtain ⟨acts, within, hrun, hseats, hcalls⟩ :=
        (hs.run hask).leads_serveAll hwithin body
      obtain ⟨g', hleave, hended, hsame⟩ := leads_leave (g := g) hseats hcalls
      refine ⟨[.ask 0 .call] ++ (acts ++ [.leave 0]), g', ?_, hended, hsame⟩
      rw [run_append, hask, Option.bind_some, run_append, hrun, Option.bind_some, hleave]
  | .panic panic => by
    rw [PermitDesk.serve]
    exact h.leads

theorem Sound.leads_serveAll {g : Gate} {d : PermitDesk} (hs : g.Sound capacity)
    (h : g.Seats d) : ∀ requests : List PermitRequest, g.Leads (d.serveAll requests).2
  | [] => by
    rw [PermitDesk.serveAll]
    exact h.leads
  | request :: requests => by
    have hfirst := hs.leads_serve h request
    rw [PermitDesk.serveAll]
    split
    · next panic d' hserve =>
      rwa [hserve] at hfirst
    · next answer d' hserve =>
      rw [hserve] at hfirst
      exact hfirst.bind hs fun mid hmid hseats => hmid.leads_serveAll hseats requests

end

end Gate

namespace PermitDesk

/-- A desk after its visitors, each of whom survives a panic. -/
def afterVisits (d : PermitDesk) (requests : List PermitRequest) : PermitDesk :=
  requests.foldl (fun d request => (d.visit request).2) d

theorem snd_visit (d : PermitDesk) (request : PermitRequest) :
    (d.visit request).2 = (d.serve request).2 := by
  unfold visit
  split
  · next answer d' hserve => rw [hserve]
  · next panic d' hserve => rw [hserve]

end PermitDesk

namespace Gate

variable {capacity : Nat} {g : Gate} {d : PermitDesk}

theorem Sound.leads_afterVisits (hs : g.Sound capacity) (h : g.Seats d)
    (requests : List PermitRequest) : g.Leads (d.afterVisits requests) := by
  induction requests generalizing g d with
  | nil => exact h.leads
  | cons request requests ih =>
    rw [PermitDesk.afterVisits, List.foldl_cons, PermitDesk.snd_visit]
    exact (hs.leads_serve h request).bind hs fun mid hmid hseats => ih hmid hseats

/-! ## The whole account -/

/-- What is true of a pool that had been new, after acts of its callers. -/
structure Guarded (capacity : Nat) (acts : List GateAct) (g : Gate) : Prop where
  /-- every permit that is kept and every call in progress has one slot -/
  counted : g.pool.inFlight = g.kept.length + g.calls.length
  distinct : (g.kept ++ g.calls.map Prod.snd).Nodup
  limit : g.pool.capacity = max capacity 1
  bounded : g.pool.inFlight ≤ g.pool.capacity
  /-- the peak is the most that was in use at any time, and was in use -/
  highest : ∀ front back mid, acts = front ++ back → (start capacity).run front = some mid →
    mid.pool.inFlight ≤ g.pool.peak
  reached : ∃ front back mid, acts = front ++ back ∧ (start capacity).run front = some mid ∧
    mid.pool.inFlight = g.pool.peak
  peak : g.pool.peak ≤ g.pool.capacity
  /-- a caller who will not wait gets a permit just if a slot is free -/
  atOnce : ∀ caller, g.wait? caller = none → g.step (.ask caller .atOnce) =
    some (if g.pool.inFlight < g.pool.capacity then g.grant caller .atOnce else g)
  /-- a request takes one more slot, or leaves all permits alone -/
  served : ∀ act g', act.isRequest = true → g.step act = some g' →
    g.pool.inFlight < g.pool.capacity →
      g'.pool.inFlight = g.pool.inFlight + 1 ∧ g'.live.Perm (g.issued :: g.live)
  vain : ∀ act g', act.isRequest = true → g.step act = some g' →
    ¬ g.pool.inFlight < g.pool.capacity →
      g'.pool = g.pool ∧ g'.kept = g.kept ∧ g'.calls = g.calls
  /-- a permit that is dropped frees one slot, and whoever looks first has it -/
  drops : ∀ permit g', g.step (.drop permit) = some g' →
    g'.pool.inFlight + 1 = g.pool.inFlight ∧ permit ∉ g'.live ∧ g'.calls = g.calls ∧
      ∀ caller demand, g.wait? caller = some demand →
        g'.step (.look caller) = some ((g'.awake caller).grant caller demand)
  /-- a call begins with one more slot, keeps it, and gives it back when its caller leaves -/
  begins : ∀ act g' caller permit, g.step act = some g' → (caller, permit) ∉ g.calls →
    (caller, permit) ∈ g'.calls → permit = g.issued ∧
      g'.pool.inFlight = g.pool.inFlight + 1 ∧ g'.calls = (caller, permit) :: g.calls ∧
        g'.kept = g.kept
  lasts : ∀ act g' caller permit, g.step act = some g' → (caller, permit) ∈ g.calls →
    (caller, permit) ∈ g'.calls ∨ act = .leave caller ∧
      g'.pool.inFlight + 1 = g.pool.inFlight ∧ permit ∉ g'.live ∧ g'.kept = g.kept
  leaves : ∀ caller permit, (caller, permit) ∈ g.calls → g.wait? caller = none →
    ∃ g', g.step (.leave caller) = some g' ∧ g'.pool.inFlight + 1 = g.pool.inFlight

/-- A caller that is in a call and does not wait can leave its innermost call. -/
theorem Sound.exists_leave (h : g.Sound capacity) {caller permit : Nat}
    (hcall : (caller, permit) ∈ g.calls) (hwait : g.wait? caller = none) :
    ∃ g', g.step (.leave caller) = some g' ∧ g'.pool.inFlight + 1 = g.pool.inFlight := by
  cases hlookup : g.calls.lookup caller with
  | none =>
    have hnot := List.lookup_eq_none_iff.mp hlookup _ hcall
    simp at hnot
  | some latest =>
    have hstep : g.step (.leave caller) =
        some { g with pool := g.pool.give, calls := g.calls.erase (caller, latest) } := by
      simp [Gate.step, hwait, hlookup]
    have hlive := ((List.perm_cons_erase (mem_of_lookup_eq_some hlookup)).map
      Prod.snd).append_left g.kept
    exact ⟨_, hstep, (h.give _ rfl (hlive.trans List.perm_middle)).1⟩

theorem guarded {acts : List GateAct} (hrun : (start capacity).run acts = some g) :
    g.Guarded capacity acts := by
  have hs := (sound_start capacity).run hrun
  have hfree := g.pool.isFull_eq_false_iff
  constructor
  · rw [hs.counted, live, List.length_append, List.length_map]
  · exact hs.distinct
  · exact hs.capacity
  · exact hs.bounded
  · rintro front back mid rfl hmid
    exact (sound_start capacity).le_peak hrun hmid
  · rcases peak_reached hrun with hstart | hreached
    · exact ⟨[], acts, start capacity, rfl, rfl, hstart.symm⟩
    · exact hreached
  · exact hs.peak
  · intro caller hwait
    by_cases hroom : g.pool.inFlight < g.pool.capacity
    · simp [step, hwait, hroom, hfree.mpr hroom]
    · have hfull : g.pool.isFull = true := by simpa using mt hfree.mp hroom
      simp [step, hwait, hroom, hfull]
  · intro act g' hact hstep hroom
    obtain ⟨waiting, caller, demand, rfl⟩ := step_of_free hact (hfree.mpr hroom) hstep
    rw [pool_grant]
    exact ⟨rfl, live_grant { g with waiting } caller demand⟩
  · intro act g' hact hstep hroom
    have hfull : g.pool.isFull = true := by simpa using mt hfree.mp hroom
    obtain ⟨waiting, rfl⟩ := step_of_full hact hfull hstep
    exact ⟨rfl, rfl, rfl⟩
  · intro permit g' hstep
    obtain ⟨hone, hroom, hgone, hcalls, hwaiting⟩ := hs.step_drop hstep
    refine ⟨hone, hgone, hcalls, fun caller demand hwait => step_look_of_free ?_ hroom⟩
    rw [wait?, hwaiting]
    exact hwait
  · intro act g' caller permit hstep hnew hcall
    exact begins_of_step hnew hstep hcall
  · intro act g' caller permit hstep hcall
    exact hs.call_of_step hcall hstep
  · intro caller permit hcall hwait
    exact hs.exists_leave hcall hwait

/-- A pool is never oversubscribed: not by callers that ask, wait, drop permits and make calls in
any order, nor by a desk in the course of any requests, at whatever point they are made. -/
theorem never_oversubscribed (capacity : Nat) :
    (∀ acts g, (start capacity).run acts = some g → g.Guarded capacity acts) ∧
    (∀ acts g d, (start capacity).run acts = some g → g.Seats d →
      (∀ name, (d.serve (.tryAcquire name)).1 =
        .ok (.flag (decide (g.pool.inFlight < g.pool.capacity)))) ∧
      ∀ request, g.Leads (d.serve request).2) ∧
    ∀ requests, (start capacity).Leads
      (PermitDesk.afterVisits { pool := .ofCapacity capacity } requests) := by
  refine ⟨fun acts g hrun => guarded hrun, fun acts g d hrun h => ⟨fun name => ?_, ?_⟩, ?_⟩
  · rw [PermitDesk.serve, ← h.pool]
    cases hfull : g.pool.isFull with
    | true =>
      have hroom : ¬ g.pool.inFlight < g.pool.capacity := by simpa [PermitPool.isFull] using hfull
      simp [hroom]
    | false => simp [g.pool.isFull_eq_false_iff.mp hfull]
  · exact ((sound_start capacity).run hrun).leads_serve h
  · exact (sound_start capacity).leads_afterVisits
      ⟨rfl, rfl, List.nodup_nil, fun _ => 0, List.Perm.refl _⟩

/-- A caller waits for the only slot; when that is free another one makes a call, and the caller that
waits looks in vain until the call is over. -/
def overtaken : List GateAct :=
  [.ask 0 .atOnce, .ask 1 .patient, .drop 0, .ask 2 .call, .look 1, .leave 2, .look 1]

theorem overtaken_guarded : ∃ g, (start 1).run overtaken = some g ∧ g.Guarded 1 overtaken ∧
    g.kept = [2] ∧ g.calls = [] ∧ g.pool.peak = 1 :=
  ⟨_, rfl, (never_oversubscribed 1).1 overtaken _ rfl, rfl, rfl, rfl⟩

end Gate
end Switchboard
