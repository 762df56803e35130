import Switchboard.Proofs.Pending.Shards
import Switchboard.Router
/-!
# Endings of requests

Every request that a table takes is owed one ending. While it waits the table owes it; completing,
failing and cancelling hand out one ending for every request that they take out of the table. So
for each continuation the endings that are owed and those that were handed out add up.
-/
namespace Switchboard

variable {κ ε : Type} [DecidableEq κ]

/-- Whether a delivery ends the request of a continuation. -/
def Delivery.endsFor (d : Delivery κ ε) (continuation : κ) : Bool :=
  d.terminal && d.continuation = continuation

/-- The endings for a continuation among some deliveries. -/
def Delivery.endings (deliveries : List (Delivery κ ε)) (continuation : κ) : Nat :=
  deliveries.countP (·.endsFor continuation)

namespace PendingTable

/-- How many requests wait with a continuation. -/
def waitingFor (t : PendingTable κ ε) (continuation : κ) : Nat :=
  t.entries.countP (·.2.continuation = continuation)

/-- How many requests were ever taken with a continuation. -/
def takenFor (t : PendingTable κ ε) (continuation : κ) : Nat := t.taken.count continuation

/-- A table hands out deliveries: what it owes less is what they end, and just those are terminal
that carry a terminal outcome. It takes nothing, so an empty table has nothing to hand out. -/
structure HandsOut (t : PendingTable κ ε) (deliveries : List (Delivery κ ε))
    (t' : PendingTable κ ε) : Prop where
  sharded : t'.Sharded
  taken : t'.taken = t.taken
  waiting : ∀ k, t'.waitingFor k + Delivery.endings deliveries k = t.waitingFor k
  terminal : ∀ d ∈ deliveries, d.terminal = d.outcome.isTerminal
  closed : t.closed = true → t'.closed = true
  empty : t.entries = [] → deliveries = [] ∧ t'.entries = []

omit [DecidableEq κ] in
/-- A request that is found stands once among the entries. -/
theorem Sharded.entries_perm_erase {t : PendingTable κ ε} (h : t.Sharded) {id : RequestId}
    {request : PendingRequest κ ε} (hf : t.find? id = some request) :
    t.entries.Perm ((id, request) :: (t.erase id).entries) := by
  have hmem := (h.find?_eq_some_iff id request).mp hf
  obtain ⟨before, after, hsplit⟩ := List.append_of_mem hmem
  have hdistinct := h.distinct
  rw [hsplit, List.map_append, List.map_cons, List.nodup_append] at hdistinct
  obtain ⟨-, hafter, hbefore⟩ := hdistinct
  have hkeep (part : List (RequestId × PendingRequest κ ε)) (hpart : ∀ e ∈ part, e.1 ≠ id) :
      part.filter (·.1 ≠ id) = part :=
    List.filter_eq_self.mpr fun e he => by simpa using hpart e he
  have herase : (t.erase id).entries = before ++ after := by
    rw [h.entries_erase, hsplit, List.filter_append, List.filter_cons_of_neg (by simp), hkeep,
      hkeep]
    · intro e he hid
      exact (List.nodup_cons.mp hafter).1 (List.mem_map.mpr ⟨e, he, hid⟩)
    · intro e he hid
      exact hbefore e.1 (List.mem_map_of_mem he) id List.mem_cons_self hid
  rw [herase, hsplit]
  exact List.perm_middle

theorem waitingFor_erase {t : PendingTable κ ε} (h : t.Sharded) {id : RequestId}
    {request : PendingRequest κ ε} (hf : t.find? id = some request) (k : κ) :
    (t.erase id).waitingFor k + (if request.continuation = k then 1 else 0) = t.waitingFor k := by
  rw [waitingFor, waitingFor, (h.entries_perm_erase hf).countP_eq, List.countP_cons]
  simp

/-- Nothing is handed out, and only counters change. -/
theorem HandsOut.count {t t' : PendingTable κ ε} {deliveries : List (Delivery κ ε)}
    (h : t.HandsOut deliveries t') (f : TableStats → TableStats) :
    t.HandsOut deliveries (t'.count f) :=
  ⟨h.sharded.count f, h.taken, h.waiting, h.terminal, h.closed, h.empty⟩

theorem Sharded.handsOut_nil {t : PendingTable κ ε} (h : t.Sharded) : t.HandsOut [] t :=
  ⟨h, rfl, fun _ => rfl, nofun, id, fun hempty => ⟨rfl, hempty⟩⟩

omit [DecidableEq κ] in
/-- Nothing is found in an empty table. -/
theorem Sharded.entries_ne_nil {t : PendingTable κ ε} (h : t.Sharded) {id : RequestId}
    {request : PendingRequest κ ε} (hf : t.find? id = some request) : t.entries ≠ [] :=
  List.ne_nil_of_mem ((h.find?_eq_some_iff id request).mp hf)

/-- A request that is taken out gets one ending. -/
theorem Sharded.handsOut_erase {t : PendingTable κ ε} (h : t.Sharded) {id : RequestId}
    {request : PendingRequest κ ε} (hf : t.find? id = some request) {o : Outcome}
    (hterminal : o.isTerminal = true) :
    t.HandsOut [request.deliver id o true] (t.erase id) where
  sharded := h.erase id
  taken := rfl
  waiting k := by
    rw [← waitingFor_erase h hf k]
    simp [Delivery.endings, Delivery.endsFor, PendingRequest.deliver, List.countP_cons]
  terminal d hd := by
    rw [List.mem_singleton.mp hd]
    exact hterminal.symm
  closed hclosed := hclosed
  empty hempty := absurd hempty (h.entries_ne_nil hf)

theorem Sharded.handsOut_complete {t : PendingTable κ ε} (h : t.Sharded) (id : RequestId)
    (result : CmdResult) : t.HandsOut (t.complete id result).2.1 (t.complete id result).2.2 := by
  rw [complete]
  cases hf : t.find? id with
  | none => exact h.handsOut_nil.count fun s => { s with dropped := s.dropped + 1 }
  | some request =>
    cases hfinal : result.isFinal with
    | true =>
      exact (h.handsOut_erase hf (o := .ok result) hfinal).count fun s =>
        { s with completed := s.completed + 1 }
    | false =>
      cases hstream : request.streaming with
      | true =>
        have hopen : t.HandsOut [request.deliver id (.ok result) false] t := by
          refine ⟨h, rfl, fun k => ?_, fun d hd => ?_, fun hclosed => hclosed,
            fun hempty => absurd hempty (h.entries_ne_nil hf)⟩
          · simp [Delivery.endings, Delivery.endsFor, PendingRequest.deliver]
          · rw [List.mem_singleton.mp hd]
            exact hfinal.symm
        simpa [hstream] using hopen
      | false => simpa [hstream] using h.handsOut_nil

theorem Sharded.handsOut_fail {t : PendingTable κ ε} (h : t.Sharded) (id : RequestId)
    (fault : Fault) : t.HandsOut (t.fail id fault).2.1 (t.fail id fault).2.2 := by
  rw [fail]
  cases hf : t.find? id with
  | none => exact h.handsOut_nil
  | some request =>
    have hout := h.handsOut_erase hf (o := .error fault) rfl
    exact hout.count fun s => { s with failed := s.failed + 1 }

/-- Cancelling hands out the endings of all that wait. -/
theorem handsOut_cancelAll (t : PendingTable κ ε) (reason : String) :
    t.HandsOut (t.cancelAll reason).2.1 (t.cancelAll reason).2.2 where
  sharded := sharded_cancelAll t reason
  taken := rfl
  waiting k := by
    rw [waitingFor, entries_cancelAll, waitingFor, ← t.pending_perm.countP_eq]
    simp only [cancelAll, Delivery.endings, Delivery.endsFor, List.countP_map, List.countP_nil,
      Nat.zero_add]
    rfl
  terminal d hd := by
    obtain ⟨entry, -, rfl⟩ := List.mem_map.mp hd
    rfl
  closed _ := rfl
  empty hempty := by
    have hpending : t.pending = [] := by
      have hperm := t.pending_perm
      rw [hempty] at hperm
      exact hperm.eq_nil
    refine ⟨?_, entries_cancelAll t reason⟩
    rw [cancelAll, hpending]
    rfl

/-- A registration that succeeds makes the table owe one more ending; one that does not changes
nothing. -/
theorem Sharded.register {t : PendingTable κ ε} (h : t.Sharded) (id : RequestId)
    (request : PendingRequest κ ε) :
    (t.register id request).2.Sharded ∧
      match (t.register id request).1 with
      | .ok () => (t.register id request).2.taken = t.taken ++ [request.continuation] ∧
        ∀ k, (t.register id request).2.waitingFor k =
          t.waitingFor k + if request.continuation = k then 1 else 0
      | .error _ => (t.register id request).2 = t := by
  rw [PendingTable.register]
  split
  · exact ⟨h, rfl⟩
  · split
    · exact ⟨h, rfl⟩
    · next hnew =>
      have hnone : t.find? id = none := by simpa [contains] using hnew
      refine ⟨((h.insert hnone request).record request.continuation).count fun s =>
        { s with registered := s.registered + 1 }, rfl, fun k => ?_⟩
      have hperm := h.entries_insert id request
      rw [waitingFor, entries_count, entries_record, hperm.countP_eq, List.countP_cons]
      simp [waitingFor]

/-- A table owes for a continuation what it did, if it took nothing; and one ending more for the
continuation that it took. -/
theorem Sharded.waitingFor_register {t : PendingTable κ ε} (h : t.Sharded) (id : RequestId)
    (request : PendingRequest κ ε) (k : κ) :
    (t.register id request).2.waitingFor k + t.takenFor k =
      t.waitingFor k + (t.register id request).2.takenFor k := by
  obtain ⟨-, hcase⟩ := h.register id request
  cases hanswer : (t.register id request).1 with
  | error e =>
    rw [hanswer] at hcase
    rw [hcase]
  | ok u =>
    rw [hanswer] at hcase
    obtain ⟨htaken, hwaiting⟩ := hcase
    rw [hwaiting, takenFor, takenFor, htaken, List.count_append, List.count_singleton]
    simp only [beq_iff_eq]
    omega

omit [DecidableEq κ] in
/-- A registration neither closes nor opens the table. -/
theorem closed_register (t : PendingTable κ ε) (id : RequestId) (request : PendingRequest κ ε) :
    (t.register id request).2.closed = t.closed := by
  rw [PendingTable.register]
  split
  · rfl
  · split
    · rfl
    · rfl

omit [DecidableEq κ] in
/-- A registration is refused and changes nothing, or the request is one of those that wait. -/
theorem Sharded.register_cases {t : PendingTable κ ε} (h : t.Sharded) (id : RequestId)
    (request : PendingRequest κ ε) :
    (∃ e, t.register id request = (.error e, t)) ∨
      ∃ t', t.register id request = (.ok (), t') ∧ t'.Sharded ∧
        t'.entries.Perm ((id, request) :: t.entries) ∧ t'.nextId = t.nextId := by
  rw [PendingTable.register]
  split
  · exact Or.inl ⟨_, rfl⟩
  · split
    · exact Or.inl ⟨_, rfl⟩
    · next hnew =>
      have hnone : t.find? id = none := by simpa [contains] using hnew
      exact Or.inr ⟨_, rfl, ((h.insert hnone request).record request.continuation).count fun s =>
        { s with registered := s.registered + 1 }, h.entries_insert id request, rfl⟩

/-- A table serves its requests: what it hands out goes to requests that wait, what still waits
waited before, and no id is handed out. -/
structure Serves (t : PendingTable κ ε) (deliveries : List (Delivery κ ε))
    (t' : PendingTable κ ε) : Prop where
  handsOut : t.HandsOut deliveries t'
  entries : t'.entries ⊆ t.entries
  sources : ∀ d ∈ deliveries, ∃ e ∈ t.entries, d = e.2.deliver e.1 d.outcome d.terminal
  nextId : t'.nextId = t.nextId

theorem Sharded.serves_nil {t : PendingTable κ ε} (h : t.Sharded) : t.Serves [] t :=
  ⟨h.handsOut_nil, List.Subset.refl _, nofun, rfl⟩

theorem Serves.count {t t' : PendingTable κ ε} {deliveries : List (Delivery κ ε)}
    (h : t.Serves deliveries t') (f : TableStats → TableStats) : t.Serves deliveries (t'.count f) :=
  ⟨h.handsOut.count f, h.entries, h.sources, h.nextId⟩

/-- A request that is taken out is served last. -/
theorem Sharded.serves_erase {t : PendingTable κ ε} (h : t.Sharded) {id : RequestId}
    {request : PendingRequest κ ε} (hf : t.find? id = some request) {o : Outcome}
    (hterminal : o.isTerminal = true) :
    t.Serves [request.deliver id o true] (t.erase id) where
  handsOut := h.handsOut_erase hf hterminal
  entries := by
    rw [h.entries_erase]
    exact fun e he => List.mem_of_mem_filter he
  sources d hd := by
    rw [List.mem_singleton.mp hd]
    exact ⟨_, (h.find?_eq_some_iff id request).mp hf, rfl⟩
  nextId := rfl

theorem Sharded.serves_complete {t : PendingTable κ ε} (h : t.Sharded) (id : RequestId)
    (result : CmdResult) : t.Serves (t.complete id result).2.1 (t.complete id result).2.2 := by
  cases hf : t.find? id with
  | none =>
    rw [complete_of_none hf]
    exact h.serves_nil.count fun s => { s with dropped := s.dropped + 1 }
  | some request =>
    cases hfinal : result.isFinal with
    | true =>
      rw [complete_of_final hf hfinal]
      exact (h.serves_erase hf (o := .ok result) hfinal).count fun s =>
        { s with completed := s.completed + 1 }
    | false =>
      have hout := h.handsOut_complete id result
      rw [complete_of_interim hf hfinal] at hout ⊢
      refine ⟨hout, List.Subset.refl _, fun d hd => ?_, rfl⟩
      cases hs : request.streaming with
      | false => simp [hs] at hd
      | true =>
        simp only [hs, if_true, List.mem_singleton] at hd
        rw [hd]
        exact ⟨_, (h.find?_eq_some_iff id request).mp hf, rfl⟩

theorem Sharded.serves_fail {t : PendingTable κ ε} (h : t.Sharded) (id : RequestId)
    (fault : Fault) : t.Serves (t.fail id fault).2.1 (t.fail id fault).2.2 := by
  cases hf : t.find? id with
  | none =>
    rw [fail_of_none hf]
    exact h.serves_nil
  | some request =>
    rw [fail_of_some hf]
    exact (h.serves_erase hf (o := .error fault) rfl).count fun s =>
      { s with failed := s.failed + 1 }

theorem serves_cancelAll (t : PendingTable κ ε) (reason : String) :
    t.Serves (t.cancelAll reason).2.1 (t.cancelAll reason).2.2 where
  handsOut := handsOut_cancelAll t reason
  entries := by
    rw [entries_cancelAll]
    exact List.nil_subset _
  sources d hd := by
    obtain ⟨e, he, rfl⟩ := List.mem_map.mp hd
    exact ⟨e, t.pending_perm.mem_iff.mp he, rfl⟩
  nextId := rfl

end PendingTable

namespace Router

variable {η : Type}

/-- A request that is taken waits under the id that was handed out for it. -/
structure Accepts (r : Router κ ε η) (request : PendingRequest κ ε) (id : RequestId)
    (r' : Router κ ε η) : Prop where
  allocated : id = ⟨r.table.nextId⟩
  sharded : r'.table.Sharded
  entries : r'.table.entries.Perm ((id, request) :: r.table.entries)
  nextId : r'.table.nextId = r.table.nextId + 1

omit [DecidableEq κ] in
/-- A router takes a request, or nothing but an id is used up. -/
theorem accept_cases {r : Router κ ε η} (h : r.table.Sharded) (request : PendingRequest κ ε) :
    (∃ id, (r.accept request).1 = .ok id ∧ r.Accepts request id (r.accept request).2) ∨
      ∃ e, (r.accept request).1 = .error e ∧
        (r.accept request).2 = { r with table := r.table.allocate.2 } := by
  have haccept : r.accept request =
      ((r.table.allocate.2.register ⟨r.table.nextId⟩ request).1.map fun _ => ⟨r.table.nextId⟩,
        { r with table := (r.table.allocate.2.register ⟨r.table.nextId⟩ request).2 }) := rfl
  rcases h.allocate.register_cases ⟨r.table.nextId⟩ request with
    ⟨e, hrefused⟩ | ⟨t, htaken, hsharded, hentries, hnext⟩
  · rw [haccept, hrefused]
    exact Or.inr ⟨e, rfl, rfl⟩
  · rw [haccept, htaken]
    exact Or.inl ⟨_, rfl, rfl, hsharded, hentries, hnext⟩

omit [DecidableEq κ] in
/-- When the table is closed nothing but an id is used up. -/
theorem accept_of_closed {r : Router κ ε η} (h : r.table.closed = true)
    (request : PendingRequest κ ε) :
    (r.accept request).2 = { r with table := r.table.allocate.2 } := by
  have hclosed : r.table.allocate.2.closed = true := h
  simp [accept, PendingTable.register, hclosed]

end Router

end Switchboard
