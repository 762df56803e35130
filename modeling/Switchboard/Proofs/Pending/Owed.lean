import Switchboard.Proofs.Pending.Marks
/-!
# What a request is owed

While a request waits, results that are not final are passed on to it if it is streaming, and
absorbed otherwise. The first final result, fault or cancellation is passed on and ends it. A
request gets these deliveries, in this order, and no others.
-/
namespace Switchboard

variable {κ ε : Type}

namespace PendingCall

/-- The outcome with which a call ends the request that waits under an id. -/
def ending? (id : RequestId) : PendingCall κ ε → Option Outcome
  | .complete other result => if other = id ∧ result.isFinal then some (.ok result) else none
  | .fail other fault => if other = id then some (.error fault) else none
  | .cancelAll reason => some (.error (.cancelled reason))
  | .allocate | .register .. | .contains _ | .size | .isClosed | .stats => none

/-- The result that a call passes to an id and that is not final. -/
def interim? (id : RequestId) : PendingCall κ ε → Option CmdResult
  | .complete other result => if other = id ∧ !result.isFinal then some result else none
  | .allocate | .register .. | .fail .. | .cancelAll _ | .contains _ | .size | .isClosed
  | .stats => none

end PendingCall

/-- What a request is owed that begins to wait under an id before some calls: if it is streaming,
all results that are not final and come before its end, in order; then its end, if it comes. -/
def PendingRequest.owed {κ' : Type} (request : PendingRequest κ ε) (id : RequestId)
    (calls : List (PendingCall κ' ε)) : List (Delivery κ ε) :=
  let waiting := calls.takeWhile fun call => (call.ending? id).isNone
  (if request.streaming then waiting.filterMap (·.interim? id) else []).map
      (fun result => request.deliver id (.ok result) false) ++
    (calls.findSome? (·.ending? id)).toList.map (request.deliver id · true)

@[simp] theorem PendingRequest.owed_nil {κ' : Type} (request : PendingRequest κ ε)
    (id : RequestId) : request.owed id ([] : List (PendingCall κ' ε)) = [] := by
  cases hs : request.streaming <;> simp [PendingRequest.owed, hs]

/-- What is owed after one call more. -/
theorem PendingRequest.owed_cons {κ' : Type} (request : PendingRequest κ ε) (id : RequestId)
    (call : PendingCall κ' ε) (calls : List (PendingCall κ' ε)) :
    request.owed id (call :: calls) =
      match call.ending? id with
      | some outcome => [request.deliver id outcome true]
      | none =>
        ((if request.streaming then call.interim? id else none).toList.map fun result =>
          request.deliver id (.ok result) false) ++ request.owed id calls := by
  cases hend : call.ending? id with
  | some outcome => cases hs : request.streaming <;> simp [PendingRequest.owed, hend, hs]
  | none =>
    cases hs : request.streaming <;> cases hi : call.interim? id <;>
      simp [PendingRequest.owed, hend, hs, hi]

/-- What is owed does not depend on the continuations that later calls register. -/
theorem PendingRequest.owed_map {κ' κ'' : Type} (f : κ' → κ'') (request : PendingRequest κ ε)
    (id : RequestId) (calls : List (PendingCall κ' ε)) :
    request.owed id (calls.map (PendingCall.map f)) = request.owed id calls := by
  induction calls with
  | nil => simp
  | cons call calls ih =>
    have hend : (call.map f).ending? id = call.ending? id := by cases call <;> rfl
    have hinterim : (call.map f).interim? id = call.interim? id := by cases call <;> rfl
    rw [List.map_cons, owed_cons, owed_cons, hend, hinterim, ih]

/-- All that a request is owed goes to its executor. -/
theorem PendingRequest.executor_of_mem_owed {κ' : Type} {request : PendingRequest κ ε}
    {id : RequestId} {calls : List (PendingCall κ' ε)} {d : Delivery κ ε}
    (hd : d ∈ request.owed id calls) : d.executor = request.executor := by
  rcases List.mem_append.mp hd with hd | hd
  · obtain ⟨result, -, rfl⟩ := List.mem_map.mp hd
    rfl
  · obtain ⟨outcome, -, rfl⟩ := List.mem_map.mp hd
    rfl

/-- A call that registers no continuation with a property. -/
def PendingCall.Avoids (p : κ → Bool) (call : PendingCall κ ε) : Prop :=
  ∀ id request, call = .register id request → p request.continuation = false

namespace PendingLedger

/-- The requests that wait with a continuation of a property. -/
def held (p : κ → Bool) (l : PendingLedger κ ε) : List (RequestId × PendingRequest κ ε) :=
  l.entries.filter (p ·.2.continuation)

/-- Every operation keeps the ids distinct. -/
theorem Distinct.perform {l : PendingLedger κ ε} (h : l.Distinct) (call : PendingCall κ ε) :
    (l.perform call).2.2.Distinct := by
  have herase (id : RequestId) : (l.erase id).Distinct :=
    h.sublist (List.filter_sublist.map _)
  cases call with
  | register id request =>
    simp only [PendingLedger.perform, PendingLedger.register]
    split
    · exact h
    · split
      · exact h
      · next hnew =>
        rw [PendingLedger.contains, Bool.not_eq_true, Option.isSome_eq_false_iff,
          Option.isNone_iff_eq_none, find?_eq_none_iff] at hnew
        exact List.nodup_cons.mpr ⟨hnew, h⟩
  | complete id result =>
    simp only [PendingLedger.perform, PendingLedger.complete]
    split
    · exact h
    · exact herase id
    · exact h
  | fail id fault =>
    simp only [PendingLedger.perform, PendingLedger.fail]
    split
    · exact h
    · exact herase id
  | cancelAll reason => exact List.nodup_nil
  | allocate => exact h
  | contains id => exact h
  | size => exact h
  | isClosed => exact h
  | stats => exact h

/-- Where nothing of a property is held, a request that is found does not have it. -/
theorem not_of_find? {p : κ → Bool} {l : PendingLedger κ ε} (h : l.held p = [])
    {id : RequestId} {request : PendingRequest κ ε} (hf : l.find? id = some request) :
    p request.continuation = false := by
  obtain ⟨e, he, rfl⟩ := Option.map_eq_some_iff.mp hf
  have hmem := List.mem_of_find?_eq_some he
  simpa using List.filter_eq_nil_iff.mp h e hmem

theorem held_erase (p : κ → Bool) (l : PendingLedger κ ε) (id : RequestId) :
    (l.erase id).held p = (l.held p).filter (·.1 ≠ id) := by
  simp only [held, erase, List.filter_filter]
  exact List.filter_congr fun e _ => Bool.and_comm _ _

/-- Cancelling delivers to what is held of a property in ascending order of ids. -/
theorem filter_cancelAll (p : κ → Bool) (l : PendingLedger κ ε) (reason : String) :
    ((l.cancelAll reason).2.1.filter (p ·.continuation)).Perm
      ((l.held p).map fun entry =>
        entry.2.deliver entry.1 (.error (.cancelled reason)) true) := by
  rw [held, cancelAll, List.filter_map]
  exact ((List.mergeSort_perm _ _).filter _).map _

/-- A registration that succeeds adds its request. -/
theorem entries_register_of_ok {l : PendingLedger κ ε} {id : RequestId}
    {request : PendingRequest κ ε} (hok : (l.register id request).1 = .ok ()) :
    (l.register id request).2.entries = (id, request) :: l.entries := by
  rw [register] at hok ⊢
  split at hok
  · cases hok
  · split at hok
    · cases hok
    · simp_all

/-- Where nothing of a property is held, a call that registers nothing of it delivers nothing to
it. -/
theorem perform_of_held_nil {p : κ → Bool} {l : PendingLedger κ ε} (h : l.held p = [])
    {call : PendingCall κ ε} (hcall : call.Avoids p) :
    (l.perform call).2.1.filter (p ·.continuation) = [] ∧ (l.perform call).2.2.held p = [] := by
  have herase (id : RequestId) : (l.erase id).held p = [] := by rw [held_erase, h]; rfl
  cases call with
  | register id request =>
    simp only [perform, register]
    refine ⟨rfl, ?_⟩
    split
    · exact h
    · split
      · exact h
      · simpa [held, hcall id request rfl] using h
  | complete id result =>
    simp only [perform, complete]
    cases hf : l.find? id with
    | none => exact ⟨rfl, h⟩
    | some request =>
      have hp := not_of_find? h hf
      cases result.isFinal with
      | true => exact ⟨by simp [PendingRequest.deliver, hp], herase id⟩
      | false =>
        refine ⟨?_, h⟩
        cases hs : request.streaming <;> simp [PendingRequest.deliver, hs, hp]
  | fail id fault =>
    simp only [perform, fail]
    cases hf : l.find? id with
    | none => exact ⟨rfl, h⟩
    | some request =>
      exact ⟨by simp [PendingRequest.deliver, not_of_find? h hf], herase id⟩
  | cancelAll reason =>
    have hperm := filter_cancelAll p l reason
    rw [h] at hperm
    exact ⟨hperm.eq_nil, rfl⟩
  | allocate => exact ⟨rfl, h⟩
  | contains id => exact ⟨rfl, h⟩
  | size => exact ⟨rfl, h⟩
  | isClosed => exact ⟨rfl, h⟩
  | stats => exact ⟨rfl, h⟩

/-- A request that is found under another id than the only one held of a property does not have
the property. -/
theorem not_of_find?_ne {p : κ → Bool} {l : PendingLedger κ ε} {id other : RequestId}
    {held found : PendingRequest κ ε} (h : l.held p = [(id, held)]) (hne : other ≠ id)
    (hf : l.find? other = some found) : p found.continuation = false := by
  obtain ⟨e, he, rfl⟩ := Option.map_eq_some_iff.mp hf
  have hid : e.1 = other := by simpa using List.find?_some he
  by_contra hp
  have hmem : e ∈ l.held p :=
    List.mem_filter.mpr ⟨List.mem_of_find?_eq_some he, by simpa using hp⟩
  rw [h, List.mem_singleton] at hmem
  exact hne (by rw [← hid, hmem])

/-- The request that is held is found under its id. -/
theorem find?_of_held {p : κ → Bool} {l : PendingLedger κ ε} (hd : l.Distinct) {id : RequestId}
    {request : PendingRequest κ ε} (h : l.held p = [(id, request)]) :
    l.find? id = some request ∧ p request.continuation = true := by
  have hmem : (id, request) ∈ l.held p := by simp [h]
  obtain ⟨hentry, hp⟩ := List.mem_filter.mp hmem
  exact ⟨(hd.find?_eq_some_iff id request).mpr hentry, hp⟩

/-- A call that ends the only request held of a property delivers its end; any other call that
registers nothing of the property delivers at most a result that is not final, and the request
goes on waiting. -/
theorem perform_of_held {p : κ → Bool} {l : PendingLedger κ ε} (hd : l.Distinct) {id : RequestId}
    {request : PendingRequest κ ε} (h : l.held p = [(id, request)]) {call : PendingCall κ ε}
    (hcall : call.Avoids p) :
    match call.ending? id with
    | some outcome =>
      (l.perform call).2.1.filter (p ·.continuation) = [request.deliver id outcome true] ∧
        (l.perform call).2.2.held p = []
    | none =>
      (l.perform call).2.1.filter (p ·.continuation) =
          ((if request.streaming then call.interim? id else none).toList.map fun result =>
            request.deliver id (.ok result) false) ∧
        (l.perform call).2.2.held p = [(id, request)] := by
  obtain ⟨hfound, hp⟩ := find?_of_held hd h
  have herase : (l.erase id).held p = [] := by simp [held_erase, h]
  have herase_ne {other : RequestId} (hne : other ≠ id) :
      (l.erase other).held p = [(id, request)] := by
    simp [held_erase, h, Ne.symm hne]
  cases call with
  | register other added =>
    simp only [PendingCall.ending?, PendingCall.interim?, perform, register, ite_self]
    refine ⟨rfl, ?_⟩
    split
    · exact h
    · split
      · exact h
      · simpa [held, hcall other added rfl] using h
  | complete other result =>
    by_cases hid : other = id
    · subst hid
      cases hfinal : result.isFinal with
      | true =>
        simp only [PendingCall.ending?, perform, complete, hfinal, hfound, and_self, if_true]
        exact ⟨by simp [PendingRequest.deliver, hp], herase⟩
      | false =>
        simp only [PendingCall.ending?, PendingCall.interim?, perform, complete, hfinal, hfound]
        cases hs : request.streaming <;> simpa [PendingRequest.deliver, hp] using h
    · simp only [PendingCall.ending?, PendingCall.interim?, hid, false_and, if_false, perform,
        complete, ite_self]
      cases hf : l.find? other with
      | none => exact ⟨rfl, h⟩
      | some found =>
        have hfp := not_of_find?_ne h hid hf
        cases result.isFinal with
        | true => exact ⟨by simp [PendingRequest.deliver, hfp], herase_ne hid⟩
        | false =>
          refine ⟨?_, h⟩
          cases hs : found.streaming <;> simp [PendingRequest.deliver, hs, hfp]
  | fail other fault =>
    by_cases hid : other = id
    · subst hid
      simp only [PendingCall.ending?, perform, fail, hfound, if_true]
      exact ⟨by simp [PendingRequest.deliver, hp], herase⟩
    · simp only [PendingCall.ending?, PendingCall.interim?, hid, if_false, perform, fail, ite_self]
      cases hf : l.find? other with
      | none => exact ⟨rfl, h⟩
      | some found =>
        exact ⟨by simp [PendingRequest.deliver, not_of_find?_ne h hid hf], herase_ne hid⟩
  | cancelAll reason =>
    have hperm := filter_cancelAll p l reason
    rw [h, List.map_singleton] at hperm
    exact ⟨List.perm_singleton.mp hperm, rfl⟩
  | allocate => exact ⟨by simp [PendingCall.interim?, perform], h⟩
  | contains other => exact ⟨by simp [PendingCall.interim?, perform], h⟩
  | size => exact ⟨by simp [PendingCall.interim?, perform], h⟩
  | isClosed => exact ⟨by simp [PendingCall.interim?, perform], h⟩
  | stats => exact ⟨by simp [PendingCall.interim?, perform], h⟩

/-- Where nothing of a property is held, calls that register nothing of it deliver nothing to it. -/
theorem history_of_held_nil {p : κ → Bool} {l : PendingLedger κ ε} (h : l.held p = [])
    {calls : List (PendingCall κ ε)} (hcalls : ∀ call ∈ calls, call.Avoids p) :
    (PendingEntry.delivered (PendingCall.history perform l calls).1).filter (p ·.continuation) = [] ∧
      (PendingCall.history perform l calls).2.held p = [] := by
  induction calls generalizing l with
  | nil => exact ⟨rfl, h⟩
  | cons call calls ih =>
    obtain ⟨hout, hafter⟩ := perform_of_held_nil h (hcalls call List.mem_cons_self)
    obtain ⟨hrest, hend⟩ := ih hafter fun c hc => hcalls c (List.mem_cons_of_mem call hc)
    refine ⟨?_, hend⟩
    simp only [PendingEntry.delivered] at hrest
    simp only [PendingEntry.delivered, PendingCall.history, List.flatMap_cons, List.filter_append,
      hout, hrest, List.append_nil]

/-- The only request held of a property gets what it is owed, and waits as long as no call ends
it. -/
theorem history_of_held {p : κ → Bool} {l : PendingLedger κ ε} (hd : l.Distinct) {id : RequestId}
    {request : PendingRequest κ ε} (h : l.held p = [(id, request)])
    {calls : List (PendingCall κ ε)} (hcalls : ∀ call ∈ calls, call.Avoids p) :
    (PendingEntry.delivered (PendingCall.history perform l calls).1).filter (p ·.continuation) =
        request.owed id calls ∧
      (PendingCall.history perform l calls).2.held p =
        if ∀ call ∈ calls, call.ending? id = none then [(id, request)] else [] := by
  induction calls generalizing l with
  | nil => exact ⟨by simp [PendingEntry.delivered], by simpa using h⟩
  | cons call calls ih =>
    have hstep := perform_of_held hd h (hcalls call List.mem_cons_self)
    have hlater : ∀ c ∈ calls, c.Avoids p := fun c hc => hcalls c (List.mem_cons_of_mem call hc)
    rw [PendingRequest.owed_cons]
    simp only [PendingEntry.delivered, PendingCall.history, List.flatMap_cons, List.filter_append,
      List.forall_mem_cons]
    cases hend : call.ending? id with
    | some outcome =>
      simp only [hend] at hstep
      obtain ⟨hrest, hafter⟩ := history_of_held_nil hstep.2 hlater
      simp only [PendingEntry.delivered] at hrest
      exact ⟨by rw [hstep.1, hrest, List.append_nil], by simpa using hafter⟩
    | none =>
      simp only [hend] at hstep
      obtain ⟨hrest, hafter⟩ := ih (hd.perform call) hstep.2 hlater
      simp only [PendingEntry.delivered] at hrest
      exact ⟨by rw [hstep.1, hrest], by simpa using hafter⟩

/-- What waits after a call waited before or is registered by the call. -/
theorem mem_entries_perform {l : PendingLedger κ ε} {call : PendingCall κ ε}
    {e : RequestId × PendingRequest κ ε} (he : e ∈ (l.perform call).2.2.entries) :
    e ∈ l.entries ∨
      call = .register e.1 e.2 ∧ (l.register e.1 e.2).1 = .ok () := by
  cases call with
  | register id request =>
    by_cases hok : (l.register id request).1 = .ok ()
    · simp only [perform, entries_register_of_ok hok, List.mem_cons] at he
      rcases he with rfl | he
      · exact Or.inr ⟨rfl, hok⟩
      · exact Or.inl he
    · simp only [perform, register] at he hok
      split at he
      · exact Or.inl he
      · split at he
        · exact Or.inl he
        · simp_all
  | complete id result =>
    simp only [perform, complete] at he
    split at he
    · exact Or.inl he
    · exact Or.inl (List.mem_of_mem_filter he)
    · exact Or.inl he
  | fail id fault =>
    simp only [perform, fail] at he
    split at he
    · exact Or.inl he
    · exact Or.inl (List.mem_of_mem_filter he)
  | cancelAll reason => exact absurd he List.not_mem_nil
  | allocate => exact Or.inl he
  | contains id => exact Or.inl he
  | size => exact Or.inl he
  | isClosed => exact Or.inl he
  | stats => exact Or.inl he

/-- What waits after some calls waited before them or was registered by one of them. -/
theorem mem_entries_history {l : PendingLedger κ ε} {calls : List (PendingCall κ ε)}
    {e : RequestId × PendingRequest κ ε}
    (he : e ∈ (PendingCall.history perform l calls).2.entries) :
    e ∈ l.entries ∨ ∃ i, calls[i]? = some (.register e.1 e.2) ∧
      ((PendingCall.history perform l (calls.take i)).2.register e.1 e.2).1 = .ok () := by
  induction calls generalizing l with
  | nil => exact Or.inl he
  | cons call calls ih =>
    rcases ih he with hbefore | ⟨i, hcall, hok⟩
    · rcases mem_entries_perform hbefore with hold | ⟨rfl, hok⟩
      · exact Or.inl hold
      · exact Or.inr ⟨0, rfl, hok⟩
    · exact Or.inr ⟨i + 1, hcall, hok⟩

end PendingLedger

end Switchboard
