import Switchboard.Proofs.Pending.Owed
/-!
# What a registration gets

In every history of a table, a registration that succeeds gets what its request is owed by the
calls that come after it, waits until one of them ends it, and nothing else that waits under its
id is answered for it.
-/
namespace Switchboard

variable {κ ε : Type}

namespace PendingCall

/-- Each entry of a history is what its call does in the state after the calls before. -/
theorem getElem?_history {σ : Type}
    (perform : σ → PendingCall κ ε → PendingAnswer × List (Delivery κ ε) × σ) (s : σ)
    (calls : List (PendingCall κ ε)) (i : Nat) :
    (history perform s calls).1[i]? = calls[i]?.map fun call =>
      { call
        answer := (perform (history perform s (calls.take i)).2 call).1
        deliveries := (perform (history perform s (calls.take i)).2 call).2.1 } := by
  induction calls generalizing s i with
  | nil => simp
  | cons call calls ih =>
    cases i with
    | zero => simp [history]
    | succ i => simpa [history] using ih (perform s call).2.2 i

theorem getElem?_numbered (calls : List (PendingCall κ ε)) (i : Nat) :
    (numbered calls)[i]? = calls[i]?.map fun call => call.map (·, i) := by
  simp [numbered, List.getElem?_mapIdx]

theorem numbered_take (calls : List (PendingCall κ ε)) (n : Nat) :
    numbered (calls.take n) = (numbered calls).take n := by
  apply List.ext_getElem?
  intro i
  simp only [getElem?_numbered, List.getElem?_take]
  split <;> rfl

/-- A call at another position registers nothing with the mark `i`. -/
theorem avoids_of_ne {calls : List (PendingCall κ ε)} {i k : Nat} (hne : k ≠ i)
    {call : PendingCall (κ × Nat) ε} (hk : (numbered calls)[k]? = some call) :
    call.Avoids fun c => c.2 = i := by
  rw [getElem?_numbered] at hk
  obtain ⟨plain, -, rfl⟩ := Option.map_eq_some_iff.mp hk
  rintro id request hreg
  cases plain <;> simp only [PendingCall.map, reduceCtorEq, register.injEq] at hreg
  obtain ⟨-, rfl⟩ := hreg
  exact decide_eq_false hne

/-- Marked calls split at a position; on both sides nothing is registered with its mark. -/
theorem numbered_split {calls : List (PendingCall κ ε)} {i : Nat} {call : PendingCall κ ε}
    (hcall : calls[i]? = some call) :
    (numbered calls).take i ++ call.map (·, i) :: (numbered calls).drop (i + 1) =
        numbered calls ∧
      (∀ c ∈ (numbered calls).take i, c.Avoids fun c => c.2 = i) ∧
      ∀ c ∈ (numbered calls).drop (i + 1), c.Avoids fun c => c.2 = i := by
  have hget : (numbered calls)[i]? = some (call.map (·, i)) := by
    rw [getElem?_numbered, hcall, Option.map_some]
  refine ⟨?_, ?_, ?_⟩
  · obtain ⟨hi, heq⟩ := List.getElem?_eq_some_iff.mp hget
    rw [← heq, ← List.drop_eq_getElem_cons hi, List.take_append_drop]
  · intro c hc
    obtain ⟨k, hk⟩ := List.mem_iff_getElem?.mp hc
    have hlt : k < i := by
      by_contra hge
      rw [List.getElem?_take, if_neg hge] at hk
      cases hk
    rw [List.getElem?_take_of_lt hlt] at hk
    exact avoids_of_ne (Nat.ne_of_lt hlt) hk
  · intro c hc
    obtain ⟨k, hk⟩ := List.mem_iff_getElem?.mp hc
    rw [List.getElem?_drop] at hk
    exact avoids_of_ne (by omega) hk

theorem ending?_map {κ' : Type} (f : κ → κ') (id : RequestId) (call : PendingCall κ ε) :
    (call.map f).ending? id = call.ending? id := by
  cases call <;> rfl

end PendingCall

namespace PendingTable

/-- A ledger that holds nothing with a mark holds just the request that it takes with the mark. -/
theorem held_register {l : PendingLedger (κ × Nat) ε} {i : Nat} {id : RequestId}
    {request : PendingRequest κ ε} (hnone : l.held (·.2 = i) = [])
    (hok : (l.register id (request.map (·, i))).1 = .ok ()) :
    (l.register id (request.map (·, i))).2.held (·.2 = i) = [(id, request.map (·, i))] := by
  have hentries := PendingLedger.entries_register_of_ok hok
  rw [PendingLedger.held] at hnone ⊢
  rw [hentries, List.filter_cons_of_pos (by simp [PendingRequest.map]), hnone]

/-- Just before a registration that succeeds nothing with its mark was delivered, and just after it
the request is all that is held with the mark. -/
theorem held_of_accepted {shards : Nat} {calls : List (PendingCall κ ε)} {i : Nat}
    {id : RequestId} {request : PendingRequest κ ε}
    (hearlier : ∀ call ∈ (PendingCall.numbered calls).take i,
      PendingCall.Avoids (fun c => c.2 = i) call)
    (hok : ((markedHistory shards (calls.take i)).2.register id (request.map (·, i))).1 = .ok ()) :
    let earlier := PendingCall.history PendingLedger.perform {} ((PendingCall.numbered calls).take i)
    (PendingEntry.delivered earlier.1).filter (·.continuation.2 = i) = [] ∧
      (earlier.2.register id (request.map (·, i))).2.Distinct ∧
      (earlier.2.register id (request.map (·, i))).2.held (·.2 = i) =
        [(id, request.map (·, i))] := by
  intro earlier
  have hagrees : (markedHistory shards (calls.take i)).2.Agrees earlier.2 := by
    rw [markedHistory, PendingCall.numbered_take]
    exact ((agrees_ofShards shards).history _).2
  obtain ⟨hregister, hagrees'⟩ := hagrees.register id (request.map (·, i))
  obtain ⟨hquiet, hnone⟩ := PendingLedger.history_of_held_nil
    (l := ({} : PendingLedger (κ × Nat) ε)) (p := fun c => c.2 = i) rfl hearlier
  exact ⟨hquiet, hagrees'.distinct, held_register hnone (hregister.symm.trans hok)⟩

/-- What numbered calls do to an id is what the plain calls do. -/
theorem owed_numbered (waiting : PendingRequest (κ × Nat) ε) (id : RequestId)
    (calls : List (PendingCall κ ε)) (n : Nat) :
    waiting.owed id ((PendingCall.numbered calls).drop n) = waiting.owed id (calls.drop n) := by
  rw [← PendingRequest.owed_map Prod.fst, List.map_drop, PendingCall.map_fst_numbered]

theorem ending?_numbered (id : RequestId) (calls : List (PendingCall κ ε)) (n : Nat) :
    (∀ call ∈ (PendingCall.numbered calls).drop n, call.ending? id = none) ↔
      ∀ call ∈ calls.drop n, call.ending? id = none := by
  have hforget : ((PendingCall.numbered calls).drop n).map (PendingCall.map Prod.fst) =
      calls.drop n := by
    rw [List.map_drop, PendingCall.map_fst_numbered]
  rw [← hforget]
  simp only [List.forall_mem_map, PendingCall.ending?_map]

/-- The deliveries that carry the mark of a registration are those it is owed, and it waits as
long as no later call ends it. -/
theorem marked_eq_owed {shards : Nat} {calls : List (PendingCall κ ε)} {i : Nat}
    {id : RequestId} {request : PendingRequest κ ε}
    (hcall : calls[i]? = some (.register id request))
    (hok : ((markedHistory shards (calls.take i)).2.register id (request.map (·, i))).1 = .ok ()) :
    (PendingEntry.delivered (markedHistory shards calls).1).filter (·.continuation.2 = i) =
        (request.map (·, i)).owed id (calls.drop (i + 1)) ∧
      ((markedHistory shards calls).2.find? id = some (request.map (·, i)) ↔
        ∀ call ∈ calls.drop (i + 1), call.ending? id = none) := by
  obtain ⟨hsplit, hearlier, hlater⟩ := PendingCall.numbered_split hcall
  obtain ⟨hquiet, hdistinct, hheld⟩ := held_of_accepted hearlier hok
  obtain ⟨howed, hend⟩ := PendingLedger.history_of_held hdistinct hheld hlater
  obtain ⟨hentries, htable⟩ := (agrees_ofShards (κ := κ × Nat) (ε := ε) shards).history
    (PendingCall.numbered calls)
  constructor
  · rw [markedHistory, hentries, ← hsplit, PendingCall.history_append]
    simp only [PendingEntry.delivered] at hquiet howed ⊢
    rw [← owed_numbered, ← howed, List.flatMap_append, List.filter_append, hquiet]
    rfl
  · rw [markedHistory, htable.find?_eq, htable.distinct.find?_eq_some_iff, ← hsplit,
      PendingCall.history_append]
    have hmem (l : PendingLedger (κ × Nat) ε) :
        (id, request.map (·, i)) ∈ l.entries ↔
          (id, request.map (·, i)) ∈ l.held fun c => c.2 = i := by
      simp [PendingLedger.held, PendingRequest.map]
    rw [hmem]
    refine (iff_of_eq (congrArg ((id, request.map (·, i)) ∈ ·) hend)).trans ?_
    refine Iff.trans ?_ (ending?_numbered id calls (i + 1))
    split
    · next hwaits => simpa using hwaits
    · next hended => simpa using hended

/-- Completing an id answers whether a request waits under it. -/
theorem complete_fst (t : PendingTable κ ε) (id : RequestId) (result : CmdResult) :
    (t.complete id result).1 = t.contains id := by
  rw [complete, contains]
  cases t.find? id with
  | none => rfl
  | some request =>
    cases result.isFinal <;> cases hs : request.streaming <;> simp [hs]

/-- Failing an id answers whether a request waits under it. -/
theorem fail_fst (t : PendingTable κ ε) (id : RequestId) (fault : Fault) :
    (t.fail id fault).1 = t.contains id := by
  rw [fail, contains]
  cases t.find? id <;> rfl

/-- What the operations on a new table answer. -/
def answers (shards : Nat) (calls : List (PendingCall κ ε)) : List PendingAnswer :=
  (PendingCall.history perform (ofShards shards) calls).1.map (·.answer)

/-- A call answers what the marked table answers after the calls before it. -/
theorem getElem?_answers (shards : Nat) (calls : List (PendingCall κ ε)) (i : Nat) :
    (answers shards calls)[i]? = calls[i]?.map fun call =>
      ((markedHistory shards (calls.take i)).2.perform (call.map (·, i))).1 := by
  have hforget : (markedHistory shards calls).1.map (·.answer) = answers shards calls := by
    rw [answers, ← map_fst_markedHistory, List.map_map]
    rfl
  rw [← hforget, List.getElem?_map, markedHistory, PendingCall.getElem?_history,
    PendingCall.getElem?_numbered, ← PendingCall.numbered_take, Option.map_map, Option.map_map]
  rfl

/-- The call at a position registers a request under an id, and succeeds. -/
def Accepts (shards : Nat) (calls : List (PendingCall κ ε)) (i : Nat) (id : RequestId)
    (request : PendingRequest κ ε) : Prop :=
  calls[i]? = some (.register id request) ∧ (answers shards calls)[i]? = some (.done (.ok ()))

theorem accepts_iff {shards : Nat} {calls : List (PendingCall κ ε)} {i : Nat} {id : RequestId}
    {request : PendingRequest κ ε} :
    Accepts shards calls i id request ↔ calls[i]? = some (.register id request) ∧
      ((markedHistory shards (calls.take i)).2.register id (request.map (·, i))).1 = .ok () := by
  refine and_congr_right fun hcall => ?_
  rw [getElem?_answers, hcall, Option.map_some, Option.some_inj]
  exact ⟨PendingAnswer.done.inj, congrArg PendingAnswer.done⟩

/-- A registration succeeds or not whatever comes after it. -/
theorem accepts_take {shards : Nat} {calls : List (PendingCall κ ε)} {i n : Nat} (hin : i < n)
    {id : RequestId} {request : PendingRequest κ ε} :
    Accepts shards (calls.take n) i id request ↔ Accepts shards calls i id request := by
  rw [accepts_iff, accepts_iff, List.getElem?_take_of_lt hin, List.take_take,
    Nat.min_eq_left (Nat.le_of_lt hin)]

/-- A request waits before the call at a position if one was registered with success, and no call
in between has ended it. -/
theorem contains_iff (shards : Nat) (calls : List (PendingCall κ ε)) (n : Nat) (id : RequestId) :
    (markedHistory shards (calls.take n)).2.contains id = true ↔
      ∃ i request, i < n ∧ Accepts shards calls i id request ∧
        ∀ call ∈ (calls.take n).drop (i + 1), call.ending? id = none := by
  have hagrees := ((agrees_ofShards (κ := κ × Nat) (ε := ε) shards).history
    (PendingCall.numbered (calls.take n))).2
  constructor
  · intro hcontains
    obtain ⟨waiting, hfound⟩ := Option.isSome_iff_exists.mp hcontains
    have hmem := hfound
    rw [markedHistory, hagrees.find?_eq, hagrees.distinct.find?_eq_some_iff] at hmem
    rcases PendingLedger.mem_entries_history hmem with hnil | ⟨i, hcall, hok⟩
    · exact absurd hnil List.not_mem_nil
    · rw [PendingCall.getElem?_numbered, Option.map_eq_some_iff] at hcall
      obtain ⟨plain, hplain, hmap⟩ := hcall
      cases plain <;> simp only [PendingCall.map, reduceCtorEq, PendingCall.register.injEq] at hmap
      rename_i id' request
      obtain ⟨rfl, rfl⟩ := hmap
      have hlt : i < n := by
        by_contra hge
        rw [List.getElem?_take, if_neg hge] at hplain
        cases hplain
      have hagreesi := ((agrees_ofShards (κ := κ × Nat) (ε := ε) shards).history
        (PendingCall.numbered ((calls.take n).take i))).2
      rw [← PendingCall.numbered_take, ← (hagreesi.register _ _).1] at hok
      have haccepts := accepts_iff.mpr ⟨hplain, hok⟩
      exact ⟨i, request, hlt, (accepts_take hlt).mp haccepts,
        (marked_eq_owed hplain hok).2.mp hfound⟩
  · rintro ⟨i, request, hlt, haccepts, hwaits⟩
    obtain ⟨hcall, hok⟩ := accepts_iff.mp ((accepts_take hlt).mpr haccepts)
    rw [PendingTable.contains, (marked_eq_owed hcall hok).2.mpr hwaits]
    rfl

/-- In every history of a new table, whatever the number of its shards, a registration that
succeeds gets on its executor exactly what its request is owed, and waits exactly as long as no
call ends it. Completing and failing an id answer whether a registration waits under it. Deliveries
are told apart by marks, which change nothing else. -/
theorem registration_gets_owed [DecidableEq ε] (shards : Nat) (calls : List (PendingCall κ ε)) :
    ((markedHistory shards calls).1.map (PendingEntry.map Prod.fst) =
      (PendingCall.history perform (ofShards shards) calls).1) ∧
    (∀ i id request, Accepts shards calls i id request →
      (∀ executor,
        (Delivery.queuedOn executor (PendingEntry.delivered (markedHistory shards calls).1)).filter
            (·.continuation.2 = i) =
          if executor = request.executor then
            (request.map (·, i)).owed id (calls.drop (i + 1))
          else []) ∧
      ∀ n, i < n →
        ((markedHistory shards (calls.take n)).2.find? id = some (request.map (·, i)) ↔
          ∀ call ∈ (calls.take n).drop (i + 1), call.ending? id = none)) ∧
    ∀ n id, (∃ result, calls[n]? = some (.complete id result)) ∨
        (∃ fault, calls[n]? = some (.fail id fault)) →
      ∃ found, (answers shards calls)[n]? = some (.flag found) ∧
        (found = true ↔ ∃ i request, i < n ∧ Accepts shards calls i id request ∧
          ∀ call ∈ (calls.take n).drop (i + 1), call.ending? id = none) := by
  refine ⟨map_fst_markedHistory shards calls, ?_, ?_⟩
  · intro i id request haccepts
    obtain ⟨hcall, hok⟩ := accepts_iff.mp haccepts
    constructor
    · intro executor
      rw [Delivery.queuedOn, List.filter_comm, (marked_eq_owed hcall hok).1]
      split
      · next hexecutor =>
        refine List.filter_eq_self.mpr fun d hd => decide_eq_true ?_
        exact (PendingRequest.executor_of_mem_owed hd).trans hexecutor.symm
      · next hexecutor =>
        refine List.filter_eq_nil_iff.mpr fun d hd hd' => hexecutor ?_
        exact (of_decide_eq_true hd').symm.trans (PendingRequest.executor_of_mem_owed hd)
    · intro n hin
      obtain ⟨hcall', hok'⟩ := accepts_iff.mp ((accepts_take hin).mpr haccepts)
      exact (marked_eq_owed hcall' hok').2
  · intro n id hcall
    refine ⟨(markedHistory shards (calls.take n)).2.contains id, ?_, contains_iff shards calls n id⟩
    rw [getElem?_answers]
    rcases hcall with ⟨result, hcall⟩ | ⟨fault, hcall⟩
    · rw [hcall, Option.map_some]
      exact congrArg (some ∘ PendingAnswer.flag) (complete_fst _ id result)
    · rw [hcall, Option.map_some]
      exact congrArg (some ∘ PendingAnswer.flag) (fail_fst _ id fault)

/-- A streaming request waits under an id, gets a result and fails. Then another request, that
does not stream, waits under the same id and is cancelled. -/
def reuse : List (PendingCall String Nat) :=
  [.register ⟨3⟩ ⟨"first", 0, true⟩,
    .complete ⟨3⟩ { verdict := .ok, isFinal := false },
    .fail ⟨3⟩ (.invalidState "gone"),
    .register ⟨3⟩ ⟨"second", 1, false⟩,
    .complete ⟨3⟩ { verdict := .ok, isFinal := false },
    .cancelAll "stop"]

/-- Each of two requests that wait under one id gets its own deliveries only. -/
theorem reuse_gets_owed :
    Accepts 2 reuse 0 ⟨3⟩ ⟨"first", 0, true⟩ ∧ Accepts 2 reuse 3 ⟨3⟩ ⟨"second", 1, false⟩ ∧
    (Delivery.queuedOn 0 (PendingEntry.delivered (markedHistory 2 reuse).1)).filter
        (·.continuation.2 = 0) =
      [⟨⟨3⟩, ("first", 0), 0, .ok { verdict := .ok, isFinal := false }, false⟩,
        ⟨⟨3⟩, ("first", 0), 0, .error (.invalidState "gone"), true⟩] ∧
    (Delivery.queuedOn 1 (PendingEntry.delivered (markedHistory 2 reuse).1)).filter
        (·.continuation.2 = 3) =
      [⟨⟨3⟩, ("second", 3), 1, .error (.cancelled "stop"), true⟩] := by
  have hfirst : Accepts 2 reuse 0 ⟨3⟩ ⟨"first", 0, true⟩ := ⟨rfl, rfl⟩
  have hsecond : Accepts 2 reuse 3 ⟨3⟩ ⟨"second", 1, false⟩ := ⟨rfl, rfl⟩
  refine ⟨hfirst, hsecond, ?_, ?_⟩
  · exact ((registration_gets_owed 2 reuse).2.1 0 _ _ hfirst).1 0
  · exact ((registration_gets_owed 2 reuse).2.1 3 _ _ hsecond).1 1

end PendingTable
end Switchboard
